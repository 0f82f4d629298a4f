/-
  Scord.Server.DatasetProcess

  What `dataset_process` makes of a dataset id.  It looks for the tier names
  anywhere in the id, one after the other, and then cuts the length of the first
  one found off the front: this is the prefix of the id, unless the name of a
  tier that is looked for earlier is in the path.
-/
import Scord.Lib.Keywords
import Scord.Server.RpcServer

namespace Scord.Server

/-- The tier name `t` is somewhere in the text. -/
abbrev Occurs (t : String × CargoDatasetType) (text : String) : Prop :=
  t.1.toList <:+: text.toList

/-! ## The tier names -/

/-- Every tier has its own type, and `none` is not one of them. -/
theorem datasetPrefixes_types :
    ∀ t ∈ datasetPrefixes, t.2 ≠ .none ∧ ∀ u ∈ datasetPrefixes, t.2 = u.2 → t = u := by
  decide

/-- No tier name is within another one. -/
theorem datasetPrefixes_apart :
    ∀ t ∈ datasetPrefixes, ∀ u ∈ datasetPrefixes, t.1.toList <:+: u.1.toList → t = u := by
  decide

/-- A tier name ends in its only colon. -/
theorem datasetPrefixes_colon :
    ∀ t ∈ datasetPrefixes,
      t.1.toList = t.1.toList.dropLast ++ [':'] ∧ ':' ∉ t.1.toList.dropLast := by
  decide

variable {t u : String × CargoDatasetType} {id p : String}

/-- An id begins with one tier name at most. -/
theorem tier_unique (ht : t ∈ datasetPrefixes) (hu : u ∈ datasetPrefixes)
    (h : t.1.toList <+: id.toList) (h' : u.1.toList <+: id.toList) : t = u := by
  rcases List.prefix_or_prefix_of_prefix h h' with hle | hle
  · exact datasetPrefixes_apart t ht u hu hle.isInfix
  · exact (datasetPrefixes_apart u hu t ht hle.isInfix).symm

/-- Another tier name is in an id exactly when it is in the path. -/
theorem occurs_append_iff (ht : t ∈ datasetPrefixes) (hu : u ∈ datasetPrefixes) (hne : u ≠ t) :
    Occurs u (t.1 ++ p) ↔ Occurs u p := by
  obtain ⟨hv, -⟩ := datasetPrefixes_colon t ht
  obtain ⟨hw, hcolon⟩ := datasetPrefixes_colon u hu
  have hapart : ¬ u.1.toList <:+: t.1.toList := fun h => hne (datasetPrefixes_apart u hu t ht h)
  unfold Occurs
  rw [hv, hw] at hapart
  rw [String.toList_append, hv, hw, Keywords.infix_append_of_mark hcolon]
  exact or_iff_right hapart

/-! ## The search -/

/-- `t` is the first tier whose name is found. -/
def FirstFound (id : String) (t : String × CargoDatasetType) : Prop :=
  ∃ before after, datasetPrefixes = before ++ t :: after ∧ Occurs t id ∧
    ∀ u ∈ before, ¬ Occurs u id

theorem FirstFound.mem (h : FirstFound id t) : t ∈ datasetPrefixes := by
  obtain ⟨before, after, hprefixes, -⟩ := h
  rw [hprefixes]
  exact List.mem_append_right _ List.mem_cons_self

theorem datasetProcess_of_firstFound (h : FirstFound id t) :
    datasetProcess id = ⟨String.ofList (id.toList.drop t.1.length), t.2⟩ := by
  obtain ⟨before, after, hprefixes, hoccurs, hbefore⟩ := h
  have hfind : datasetPrefixes.find? (fun t => decide (t.1.toList <:+: id.toList)) = some t := by
    rw [List.find?_eq_some_iff_append]
    refine ⟨decide_eq_true hoccurs, before, after, hprefixes, fun u hu => ?_⟩
    rw [decide_eq_false (hbefore u hu)]
    rfl
  unfold datasetProcess
  rw [hfind]

theorem datasetProcess_of_none (h : ∀ t ∈ datasetPrefixes, ¬ Occurs t id) :
    datasetProcess id = ⟨id, .none⟩ := by
  have hfind : datasetPrefixes.find? (fun t => decide (t.1.toList <:+: id.toList)) = none := by
    rw [List.find?_eq_none]
    intro t ht
    simpa using h t ht
  unfold datasetProcess
  rw [hfind]

/-- A tier is found, or there is none in the id. -/
theorem firstFound_or (id : String) :
    (∃ t, FirstFound id t) ∨ ∀ t ∈ datasetPrefixes, ¬ Occurs t id := by
  cases hfind : datasetPrefixes.find? (fun t => decide (t.1.toList <:+: id.toList)) with
  | none =>
      rw [List.find?_eq_none] at hfind
      refine .inr fun t ht => ?_
      simpa using hfind t ht
  | some t =>
      rw [List.find?_eq_some_iff_append] at hfind
      obtain ⟨hoccurs, before, after, hprefixes, hbefore⟩ := hfind
      refine .inl ⟨t, before, after, hprefixes, of_decide_eq_true hoccurs, fun u hu => ?_⟩
      simpa using hbefore u hu

/-- With the first tier found at the front of the id, its name is cut off. -/
theorem datasetProcess_append (h : FirstFound (t.1 ++ p) t) :
    datasetProcess (t.1 ++ p) = ⟨p, t.2⟩ := by
  rw [datasetProcess_of_firstFound h, String.toList_append, ← String.length_toList,
    List.drop_left, String.ofList_toList]

/-! ## When the prefix is split off -/

/-- The prefix of the id is split off: a tier name at the front gives its type
    and the path behind it, and an id without one is a path of no type. -/
def SplitsPrefix (id : String) : Prop :=
  (∀ t ∈ datasetPrefixes, ∀ p, id = t.1 ++ p → datasetProcess id = ⟨p, t.2⟩) ∧
    ((∀ t ∈ datasetPrefixes, ∀ p, id ≠ t.1 ++ p) → datasetProcess id = ⟨id, .none⟩)

/-- No tier name is in the id, or one is at its front and none of those that are
    looked for before it is in the path. -/
def Unambiguous (id : String) : Prop :=
  (∀ t ∈ datasetPrefixes, ¬ Occurs t id) ∨
    ∃ before t after p, datasetPrefixes = before ++ t :: after ∧ id = t.1 ++ p ∧
      ∀ u ∈ before, ¬ Occurs u p

theorem prefix_of_eq_append (h : id = t.1 ++ p) : t.1.toList <+: id.toList := by
  rw [h, String.toList_append]
  exact List.prefix_append ..

theorem occurs_of_eq_append (h : id = t.1 ++ p) : Occurs t id := (prefix_of_eq_append h).isInfix

/-- The names of the tiers before `t` are not that of `t`. -/
theorem ne_of_mem_before {before after : List (String × CargoDatasetType)}
    (hprefixes : datasetPrefixes = before ++ t :: after) (hu : u ∈ before) : u ≠ t := by
  have hnodup : datasetPrefixes.Nodup := by decide
  rw [hprefixes] at hnodup
  rintro rfl
  exact (List.nodup_append.mp hnodup).2.2 u hu u List.mem_cons_self rfl

/-- A tier is in the list once. -/
theorem before_unique {before after before' after' : List (String × CargoDatasetType)}
    (h : datasetPrefixes = before ++ t :: after) (h' : datasetPrefixes = before' ++ t :: after') :
    before' = before := by
  have hnodup : datasetPrefixes.Nodup := by decide
  have hidx : datasetPrefixes[before.length]? = some t := by
    rw [h, List.getElem?_append_right (Nat.le_refl _), Nat.sub_self]
    rfl
  have hidx' : datasetPrefixes[before'.length]? = some t := by
    rw [h', List.getElem?_append_right (Nat.le_refl _), Nat.sub_self]
    rfl
  obtain ⟨hlt, -⟩ := List.getElem?_eq_some_iff.mp hidx'
  have hlength : before'.length = before.length :=
    (List.getElem?_inj hlt hnodup).mp (hidx'.trans hidx.symm)
  exact (List.append_inj (h'.symm.trans h) hlength).1

/-- The tier at the front of an id is the first one found exactly when none of the
    tier names that are looked for earlier is in the path. -/
theorem firstFound_append_iff {before after : List (String × CargoDatasetType)}
    (hprefixes : datasetPrefixes = before ++ t :: after) :
    FirstFound (t.1 ++ p) t ↔ ∀ u ∈ before, ¬ Occurs u p := by
  have ht : t ∈ datasetPrefixes := by
    rw [hprefixes]
    exact List.mem_append_right _ List.mem_cons_self
  have hpath : ∀ u ∈ before, Occurs u (t.1 ++ p) ↔ Occurs u p := by
    intro u hu
    apply occurs_append_iff ht _ (ne_of_mem_before hprefixes hu)
    rw [hprefixes]
    exact List.mem_append_left _ hu
  constructor
  · rintro ⟨before', after', hprefixes', -, hbefore'⟩ u hu hoccurs
    rw [before_unique hprefixes hprefixes'] at hbefore'
    exact hbefore' u hu ((hpath u hu).mpr hoccurs)
  · intro h
    refine ⟨before, after, hprefixes, occurs_of_eq_append rfl, fun u hu hoccurs => ?_⟩
    exact h u hu ((hpath u hu).mp hoccurs)

/-- The type of the result tells which tier was found. -/
theorem unambiguous_of_splitsPrefix (h : SplitsPrefix id) : Unambiguous id := by
  rcases firstFound_or id with ⟨t, hfound⟩ | hnone
  · have hprocess := datasetProcess_of_firstFound hfound
    by_cases hfront : ∃ u ∈ datasetPrefixes, ∃ p, id = u.1 ++ p
    · obtain ⟨u, hu, p, rfl⟩ := hfront
      have htype := congrArg CargoDataset.type ((h.1 u hu p rfl).symm.trans hprocess)
      obtain rfl := (datasetPrefixes_types u hu).2 t hfound.mem htype
      obtain ⟨before, after, hprefixes⟩ := List.append_of_mem hfound.mem
      exact .inr ⟨before, u, after, p, hprefixes, rfl, (firstFound_append_iff hprefixes).mp hfound⟩
    · have hno : ∀ u ∈ datasetPrefixes, ∀ p, id ≠ u.1 ++ p :=
        fun u hu p hid => hfront ⟨u, hu, p, hid⟩
      have htype := congrArg CargoDataset.type ((h.2 hno).symm.trans hprocess)
      exact absurd htype.symm (datasetPrefixes_types t hfound.mem).1
  · exact .inl hnone

/-- A tier that is found at the front of the id is split off. -/
theorem splitsPrefix_of_firstFound (hfound : FirstFound (t.1 ++ p) t) :
    SplitsPrefix (t.1 ++ p) := by
  refine ⟨?_, fun hno => absurd rfl (hno t hfound.mem p)⟩
  intro u hu q hid
  obtain rfl : t = u :=
    tier_unique hfound.mem hu (prefix_of_eq_append rfl) (prefix_of_eq_append hid)
  have hpath : p = q := by
    rw [← String.toList_inj] at hid ⊢
    rw [String.toList_append, String.toList_append] at hid
    exact List.append_cancel_left hid
  rw [datasetProcess_append hfound, hpath]

/-- **The prefix of an id is split off exactly when the id is unambiguous.** -/
theorem splitsPrefix_iff (id : String) : SplitsPrefix id ↔ Unambiguous id := by
  refine ⟨unambiguous_of_splitsPrefix, ?_⟩
  rintro (hnone | ⟨before, t, after, p, hprefixes, rfl, hbefore⟩)
  · refine ⟨?_, fun _ => datasetProcess_of_none hnone⟩
    intro t ht p hid
    exact absurd (occurs_of_eq_append hid) (hnone t ht)
  · exact splitsPrefix_of_firstFound ((firstFound_append_iff hprefixes).mpr hbefore)

/-- A POSIX path with the name of a tier in it. -/
theorem not_splitsPrefix_posix_lustre : ¬ SplitsPrefix "posix:/data/lustre:1" := by
  rintro ⟨hfront, -⟩
  have hprocess := hfront ("posix:", .posix) (by decide) "/data/lustre:1" (by decide)
  revert hprocess
  decide

end Scord.Server
