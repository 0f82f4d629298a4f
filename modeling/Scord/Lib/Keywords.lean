/-
  Scord.Lib.Keywords

  Texts with keywords in them, and the replacement of the keywords from left to
  right.

  Where every keyword begins with a mark that is nowhere else in it, and none is
  the beginning of another, two occurrences never overlap.  A text then has one
  way to be taken apart into literals and keywords, and a left-to-right
  replacement fills in the values between the literals.

  Keywords that end in a mark instead do not reach over the end of another one.
-/
import Mathlib.Data.List.Infix

namespace Keywords

variable {α : Type}

/-! ## Keywords with a mark in front -/

/-- Every keyword begins with the mark, which is nowhere else in it, and none is
    the beginning of another. -/
structure Delimited (mark : α) (keys : List (List α)) : Prop where
  shape : ∀ k ∈ keys, ∃ w, k = mark :: w ∧ mark ∉ w
  prefixFree : ∀ k ∈ keys, ∀ k' ∈ keys, k <+: k' → k = k'

/-- No keyword occurs in the text. -/
def Free (keys : List (List α)) (l : List α) : Prop := ∀ k ∈ keys, ¬ k <:+: l

/-- The text is empty, or begins with a keyword. -/
def Starts (keys : List (List α)) (l : List α) : Prop := l = [] ∨ ∃ k ∈ keys, k <+: l

section Overlap

variable {mark : α} {keys : List (List α)}

/-- Some of the keywords. -/
theorem Delimited.mono (hd : Delimited mark keys) {keys' : List (List α)}
    (h : ∀ k ∈ keys', k ∈ keys) : Delimited mark keys' :=
  ⟨fun k hk => hd.shape k (h k hk), fun k hk k' hk' => hd.prefixFree k (h k hk) k' (h k' hk')⟩

theorem Free.of_infix {l l' : List α} (h : Free keys l) (hl : l' <:+: l) : Free keys l' :=
  fun k hk hkl => h k hk (hkl.trans hl)

/-- A character in front of a text, where no keyword begins. -/
theorem Free.cons {c : α} {l : List α} (hl : Free keys l)
    (hc : ∀ k ∈ keys, ¬ k <+: c :: l) : Free keys (c :: l) := by
  intro k hk hin
  rcases List.infix_cons_iff.mp hin with hbegins | hin
  · exact hc k hk hbegins
  · exact hl k hk hin

theorem Delimited.free_nil (hd : Delimited mark keys) : Free keys [] := by
  intro k hk hin
  obtain ⟨w, rfl, -⟩ := hd.shape k hk
  cases List.infix_nil.mp hin

/-- A keyword that begins before another one ends before it. -/
theorem Delimited.no_overlap (hd : Delimited mark keys) {k k' s r q : List α} (hk : k ∈ keys)
    (hk' : k' ∈ keys) (hs : s ≠ []) (h : k ++ r = s ++ (k' ++ q)) : k <+: s := by
  rcases List.append_eq_append_iff.mp h with ⟨s', hs', -⟩ | ⟨t, ht, hrest⟩
  · exact ⟨s', hs'.symm⟩
  · cases t with
    | nil =>
        rw [List.append_nil] at ht
        rw [ht]
    | cons b t =>
        -- the mark of `k'` would be inside `k`
        obtain ⟨w, hw, hmark⟩ := hd.shape k hk
        obtain ⟨w', hw', -⟩ := hd.shape k' hk'
        rw [hw', List.cons_append, List.cons_append] at hrest
        obtain ⟨rfl, -⟩ := List.cons.inj hrest
        obtain ⟨c, s, rfl⟩ := List.exists_cons_of_ne_nil hs
        rw [hw, List.cons_append] at ht
        have hmem : mark ∈ w := by
          rw [(List.cons.inj ht).2]
          simp
        exact absurd hmem hmark

/-- Two keywords at the same place are the same. -/
theorem Delimited.eq_of_prefix (hd : Delimited mark keys) {k k' l : List α} (hk : k ∈ keys)
    (hk' : k' ∈ keys) (h : k <+: l) (h' : k' <+: l) : k = k' := by
  rcases List.prefix_or_prefix_of_prefix h h' with hle | hle
  · exact hd.prefixFree k hk k' hk' hle
  · exact (hd.prefixFree k' hk' k hk hle).symm

/-- Where a text without keywords goes on with a keyword, no other one begins
    before that. -/
theorem Delimited.not_prefix (hd : Delimited mark keys) {s tail : List α} (hfree : Free keys s)
    (hs : s ≠ []) (ht : Starts keys tail) : ∀ k ∈ keys, ¬ k <+: s ++ tail := by
  rintro k hk ⟨r, hr⟩
  rcases ht with rfl | ⟨k', hk', q, rfl⟩
  · rw [List.append_nil] at hr
    exact hfree k hk (List.IsPrefix.isInfix ⟨r, hr⟩)
  · have hbegins := hd.no_overlap hk hk' hs hr
    exact hfree k hk hbegins.isInfix

/-- The first keyword of a text. -/
theorem Delimited.first_unique (hd : Delimited mark keys) {l l' k k' r r' : List α}
    (hl : Free keys l) (hl' : Free keys l') (hk : k ∈ keys) (hk' : k' ∈ keys)
    (h : l ++ (k ++ r) = l' ++ (k' ++ r')) : l = l' ∧ k = k' ∧ r = r' := by
  -- whichever literal is the shorter one, what it is short of is empty
  have hsame : ∀ {l l' k k' r r' s : List α}, Free keys l' → k ∈ keys → k' ∈ keys →
      l' = l ++ s → k ++ r = s ++ (k' ++ r') → s = [] := by
    intro l l' k k' r r' s hl' hk hk' hs hrest
    by_contra hne
    have hbegins := hd.no_overlap hk hk' hne hrest
    apply hl' k hk
    rw [hs]
    exact hbegins.isInfix.trans (List.suffix_append l s).isInfix
  have hlit : l = l' := by
    rcases List.append_eq_append_iff.mp h with ⟨s, hs, hrest⟩ | ⟨s, hs, hrest⟩
    · rw [hs, hsame hl' hk hk' hs hrest, List.append_nil]
    · rw [hs, hsame hl hk' hk hs hrest, List.append_nil]
  subst hlit
  have hrest := List.append_cancel_left h
  have hkey : k = k' := by
    apply hd.eq_of_prefix hk hk' (List.prefix_append k r)
    rw [hrest]
    exact List.prefix_append k' r'
  subst hkey
  exact ⟨rfl, rfl, List.append_cancel_left hrest⟩

end Overlap

/-! ## Texts taken apart -/

/-- Literals, each of them followed by a keyword, and a last literal. -/
inductive Parts (α : Type)
  | last (l : List α)
  | more (l k : List α) (rest : Parts α)

namespace Parts

/-- The text with the values `v` for the keywords. -/
def fill (v : List α → List α) : Parts α → List α
  | last l => l
  | more l k rest => l ++ (v k ++ rest.fill v)

/-- The text as it is. -/
def text : Parts α → List α
  | last l => l
  | more l k rest => l ++ (k ++ rest.text)

/-- The keywords, in their order. -/
def keywords : Parts α → List (List α)
  | last _ => []
  | more _ k rest => k :: rest.keywords

/-- The text is taken apart at all of its keywords. -/
inductive At (keys : List (List α)) : Parts α → Prop
  | last {l : List α} (hl : Free keys l) : At keys (.last l)
  | more {l k : List α} {rest : Parts α} (hl : Free keys l) (hk : k ∈ keys)
      (h : At keys rest) : At keys (.more l k rest)

@[simp] theorem fill_last (v : List α → List α) (l : List α) : (last l).fill v = l := rfl
@[simp] theorem fill_more (v : List α → List α) (l k : List α) (rest : Parts α) :
    (more l k rest).fill v = l ++ (v k ++ rest.fill v) := rfl
@[simp] theorem text_last (l : List α) : (last l).text = l := rfl
@[simp] theorem text_more (l k : List α) (rest : Parts α) :
    (more l k rest).text = l ++ (k ++ rest.text) := rfl

/-- Values that agree on the keywords of a text fill it in the same way. -/
theorem fill_congr {v v' : List α → List α} {d : Parts α}
    (h : ∀ k ∈ d.keywords, v k = v' k) : d.fill v = d.fill v' := by
  induction d with
  | last l => rfl
  | more l k rest ih =>
      rw [fill_more, fill_more, h k List.mem_cons_self,
        ih fun k hk => h k (List.mem_cons_of_mem _ hk)]

/-- What the filled text consists of. -/
theorem mem_fill {v : List α → List α} {d : Parts α} {c : α} (hc : c ∉ d.text) :
    c ∈ d.fill v ↔ ∃ k ∈ d.keywords, c ∈ v k := by
  induction d with
  | last l => simpa [keywords] using hc
  | more l k rest ih =>
      simp only [text_more, List.mem_append, not_or] at hc
      rw [fill_more, List.mem_append, List.mem_append, ih hc.2.2]
      simp [keywords, hc.1]

section Unique

variable {mark : α} {keys : List (List α)}

theorem At.mem_keys {d : Parts α} (h : d.At keys) : ∀ k ∈ d.keywords, k ∈ keys := by
  induction h with
  | last hl => exact nofun
  | more hl hk h ih =>
      intro k hk'
      rcases List.mem_cons.mp hk' with rfl | hk'
      · exact hk
      · exact ih k hk'

/-- Only the keywords that occur matter. -/
theorem At.of_subset {keys' : List (List α)} (hsub : ∀ k ∈ keys', k ∈ keys) {d : Parts α}
    (h : d.At keys) (hd : ∀ k ∈ d.keywords, k ∈ keys') : d.At keys' := by
  induction h with
  | last hl => exact .last fun k hk => hl k (hsub k hk)
  | more hl hk h ih =>
      refine .more (fun k hk => hl k (hsub k hk)) (hd _ List.mem_cons_self) ?_
      exact ih fun k hk => hd k (List.mem_cons_of_mem _ hk)

/-- A text with a keyword is not free of keywords. -/
theorem not_free_more {l k : List α} {rest : Parts α} (hk : k ∈ keys) :
    ¬ Free keys (more l k rest).text := by
  intro hfree
  apply hfree k hk
  have hkey : k <:+: k ++ rest.text := (List.prefix_append k rest.text).isInfix
  exact hkey.trans (List.suffix_append l _).isInfix

/-- **A text is taken apart in one way only.** -/
theorem At.unique (hd : Delimited mark keys) {d d' : Parts α} (h : d.At keys) (h' : d'.At keys)
    (htext : d.text = d'.text) : d = d' := by
  induction h generalizing d' with
  | @last l hl =>
      cases h' with
      | @last l' hl' =>
          rw [text_last, text_last] at htext
          rw [htext]
      | more hl' hk' h' =>
          -- one of the two has a keyword, and the other has none
          rw [text_last] at htext
          exact absurd (htext ▸ hl) (not_free_more hk')
  | @more l k rest hl hk h ih =>
      cases h' with
      | @last l' hl' =>
          rw [text_last] at htext
          exact absurd (htext.symm ▸ hl') (not_free_more hk)
      | more hl' hk' h' =>
          rw [text_more, text_more] at htext
          obtain ⟨rfl, rfl, hrest⟩ := hd.first_unique hl hl' hk hk' htext
          rw [ih h' hrest]

/-- **Every text can be taken apart.** -/
theorem exists_at (hd : Delimited mark keys) (cs : List α) :
    ∃ d : Parts α, d.At keys ∧ d.text = cs := by
  -- the induction is on the length: behind a keyword the text is shorter
  induction hlength : cs.length using Nat.strong_induction_on generalizing cs with
  | _ n ih =>
    cases cs with
    | nil => exact ⟨.last [], .last hd.free_nil, rfl⟩
    | cons c cs =>
        rw [List.length_cons] at hlength
        by_cases hkey : ∃ k ∈ keys, k <+: c :: cs
        · obtain ⟨k, hk, r, hr⟩ := hkey
          obtain ⟨w, hw, -⟩ := hd.shape k hk
          have hshort : r.length < n := by
            have hsum := congrArg List.length hr
            rw [List.length_append, hw, List.length_cons, List.length_cons] at hsum
            omega
          obtain ⟨d, hat, htext⟩ := ih r.length hshort r rfl
          refine ⟨.more [] k d, .more hd.free_nil hk hat, ?_⟩
          rw [text_more, htext, List.nil_append, hr]
        · have hnone : ∀ k ∈ keys, ¬ k <+: c :: cs := fun k hk hbegins => hkey ⟨k, hk, hbegins⟩
          have hshort : cs.length < n := by omega
          obtain ⟨d, hat, htext⟩ := ih cs.length hshort cs rfl
          -- the character goes to the first literal
          have hfirst : ∀ l tail : List α, Free keys l → cs = l ++ tail →
              Free keys (c :: l) := by
            intro l tail hl hcs
            refine hl.cons fun k hk hbegins => hnone k hk (hbegins.trans ?_)
            rw [hcs]
            exact ⟨tail, rfl⟩
          cases hat with
          | @last l hl =>
              rw [text_last] at htext
              rw [← htext]
              exact ⟨.last (c :: l), .last (hfirst l [] hl (by rw [List.append_nil, htext])), rfl⟩
          | @more l k rest hl hk h =>
              rw [text_more] at htext
              refine ⟨.more (c :: l) k rest, .more (hfirst l _ hl htext.symm) hk h, ?_⟩
              rw [text_more, List.cons_append, htext]

/-- A text in front of a keyword and one behind it. -/
theorem At.join {d d' : Parts α} {k : List α} (h : d.At keys) (hk : k ∈ keys)
    (h' : d'.At keys) :
    ∃ j : Parts α, j.At keys ∧ j.text = d.text ++ (k ++ d'.text) ∧ k ∈ j.keywords := by
  induction h with
  | @last l hl => exact ⟨.more l k d', .more hl hk h', rfl, List.mem_cons_self⟩
  | @more l k' rest hl hk' h ih =>
      obtain ⟨j, hj, htext, hmem⟩ := ih
      refine ⟨.more l k' j, .more hl hk' hj, ?_, List.mem_cons_of_mem _ hmem⟩
      rw [text_more, text_more, htext]
      simp only [List.append_assoc]

/-- A keyword occurs in a text exactly when the text is taken apart at it. -/
theorem At.mem_keywords_iff (hd : Delimited mark keys) {d : Parts α} (h : d.At keys)
    {k : List α} (hk : k ∈ keys) : k ∈ d.keywords ↔ k <:+: d.text := by
  refine ⟨?_, ?_⟩
  · intro hmem
    clear h
    induction d with
    | last l => cases hmem
    | more l k' rest ih =>
        rw [text_more]
        rcases List.mem_cons.mp hmem with rfl | hmem
        · have hkey : k <:+: k ++ rest.text := (List.prefix_append k rest.text).isInfix
          exact hkey.trans (List.suffix_append l _).isInfix
        · have hrest : rest.text <:+: k' ++ rest.text := (List.suffix_append k' _).isInfix
          exact ((ih hmem).trans hrest).trans (List.suffix_append l _).isInfix
  · rintro ⟨p, q, hpq⟩
    obtain ⟨dp, hp, hptext⟩ := exists_at hd p
    obtain ⟨dq, hq, hqtext⟩ := exists_at hd q
    obtain ⟨j, hj, htext, hmem⟩ := hp.join hk hq
    have hsame : j = d := by
      apply hj.unique hd h
      rw [htext, hptext, hqtext, ← hpq, List.append_assoc]
    exact hsame ▸ hmem

end Unique

end Parts

/-! ## Replacement from left to right -/

/-- Replace what `find` finds at the front of the text, and go on behind it;
    `skip` characters of the latest match are still to be passed over. -/
def replace (find : List α → Option (List α × Nat)) : Nat → List α → List α
  | _, [] => []
  | skip + 1, _ :: cs => replace find skip cs
  | 0, c :: cs =>
      match find (c :: cs) with
      | some (value, length) => value ++ replace find (length - 1) cs
      | none => c :: replace find 0 cs

/-- `find` finds the keywords, each with its value and its length. -/
structure Finds (keys : List (List α)) (v : List α → List α)
    (find : List α → Option (List α × Nat)) : Prop where
  found : ∀ {cs r}, find cs = some r → ∃ k ∈ keys, k <+: cs ∧ r = (v k, k.length)
  notFound : ∀ {cs}, find cs = none → ∀ k ∈ keys, ¬ k <+: cs

section Replace

variable {mark : α} {keys : List (List α)} {v : List α → List α}
  {find : List α → Option (List α × Nat)}

/-- The order of the keywords does not matter. -/
theorem Finds.perm (hf : Finds keys v find) {keys' : List (List α)} (h : keys.Perm keys') :
    Finds keys' v find := by
  refine ⟨?_, fun hnone k hk => hf.notFound hnone k (h.mem_iff.mpr hk)⟩
  intro cs r hsome
  obtain ⟨k, hk, hfound⟩ := hf.found hsome
  exact ⟨k, h.mem_iff.mp hk, hfound⟩

theorem replace_of_none {c : α} {cs : List α} (h : find (c :: cs) = none) :
    replace find 0 (c :: cs) = c :: replace find 0 cs := by
  rw [replace, h]

theorem replace_of_some {c : α} {cs value : List α} {length : Nat}
    (h : find (c :: cs) = some (value, length)) :
    replace find 0 (c :: cs) = value ++ replace find (length - 1) cs := by
  rw [replace, h]

/-- The rest of a match is passed over. -/
theorem replace_skip (w rest : List α) :
    replace find w.length (w ++ rest) = replace find 0 rest := by
  induction w with
  | nil => rfl
  | cons c w ih =>
      rw [List.length_cons, List.cons_append, replace]
      exact ih

theorem Finds.find_eq_none (hf : Finds keys v find) {cs : List α}
    (h : ∀ k ∈ keys, ¬ k <+: cs) : find cs = none := by
  cases hfind : find cs with
  | none => rfl
  | some r =>
      obtain ⟨k, hk, hbegins, -⟩ := hf.found hfind
      exact absurd hbegins (h k hk)

theorem Finds.find_eq_some (hf : Finds keys v find) (hd : Delimited mark keys) {k cs : List α}
    (hk : k ∈ keys) (h : k <+: cs) : find cs = some (v k, k.length) := by
  cases hfind : find cs with
  | none => exact absurd h (hf.notFound hfind k hk)
  | some r =>
      obtain ⟨k', hk', hbegins, rfl⟩ := hf.found hfind
      rw [hd.eq_of_prefix hk hk' h hbegins]

/-- A literal is kept. -/
theorem replace_literal (hf : Finds keys v find) (hd : Delimited mark keys) {l tail : List α}
    (hl : Free keys l) (ht : Starts keys tail) :
    replace find 0 (l ++ tail) = l ++ replace find 0 tail := by
  induction l with
  | nil => rfl
  | cons c l ih =>
      have hnone : find (c :: (l ++ tail)) = none :=
        hf.find_eq_none (hd.not_prefix hl (List.cons_ne_nil c l) ht)
      rw [List.cons_append, replace_of_none hnone, ih (hl.of_infix (List.suffix_cons c l).isInfix)]
      rfl

/-- A keyword is replaced. -/
theorem replace_keyword (hf : Finds keys v find) (hd : Delimited mark keys) {k rest : List α}
    (hk : k ∈ keys) : replace find 0 (k ++ rest) = v k ++ replace find 0 rest := by
  have hsome := hf.find_eq_some hd hk (List.prefix_append k rest)
  obtain ⟨w, rfl, -⟩ := hd.shape k hk
  rw [List.cons_append] at hsome ⊢
  rw [replace_of_some hsome, List.length_cons, Nat.add_sub_cancel, replace_skip]

/-- **The values are filled in between the literals**, and are not looked at
    again. -/
theorem replace_text (hf : Finds keys v find) (hd : Delimited mark keys) {d : Parts α}
    (h : d.At keys) : replace find 0 d.text = d.fill v := by
  induction h with
  | @last l hl =>
      have hkept := replace_literal hf hd hl (.inl rfl)
      rw [List.append_nil] at hkept
      rw [Parts.text_last, Parts.fill_last, hkept]
      exact List.append_nil l
  | @more l k rest hl hk h ih =>
      have hstarts : Starts keys (k ++ rest.text) := .inr ⟨k, hk, List.prefix_append ..⟩
      rw [Parts.text_more, Parts.fill_more, replace_literal hf hd hl hstarts,
        replace_keyword hf hd hk, ih]

/-- Nothing is left exactly of keywords without literals and with empty values. -/
theorem replace_eq_nil_iff (hf : Finds keys v find) (hd : Delimited mark keys) {cs : List α} :
    replace find 0 cs = [] ↔
      ∃ ks : List (List α), (∀ k ∈ ks, k ∈ keys ∧ v k = []) ∧ cs = ks.flatten := by
  refine ⟨fun hnil => ?_, ?_⟩
  · obtain ⟨d, hat, rfl⟩ := Parts.exists_at hd cs
    rw [replace_text hf hd hat] at hnil
    induction hat with
    | last hl => exact ⟨[], nofun, hnil⟩
    | @more l k rest hl hk h ih =>
        rw [Parts.fill_more, List.append_eq_nil_iff, List.append_eq_nil_iff] at hnil
        obtain ⟨rfl, hvalue, hrest⟩ := hnil
        obtain ⟨ks, hks, htext⟩ := ih hrest
        refine ⟨k :: ks, ?_, ?_⟩
        · intro k' hk'
          rcases List.mem_cons.mp hk' with rfl | hk'
          · exact ⟨hk, hvalue⟩
          · exact hks k' hk'
        · rw [Parts.text_more, List.nil_append, List.flatten_cons, htext]
  · rintro ⟨ks, hks, rfl⟩
    induction ks with
    | nil => rfl
    | cons k ks ih =>
        obtain ⟨hk, hvalue⟩ := hks k List.mem_cons_self
        rw [List.flatten_cons, replace_keyword hf hd hk, hvalue, List.nil_append]
        exact ih fun k' hk' => hks k' (List.mem_cons_of_mem _ hk')

/-! ### Separators

A separator that is in no keyword splits a text and what it is replaced by in
the same way, as long as the values have no separator either. -/

/-- A keyword without the separator does not reach over it. -/
theorem prefix_append_separator {c : α} {k a b : List α} (hc : c ∉ k) :
    k <+: a ++ c :: b ↔ k <+: a := by
  refine ⟨?_, fun h => h.trans (List.prefix_append a _)⟩
  rintro ⟨r, hr⟩
  rcases List.append_eq_append_iff.mp hr with ⟨s, hs, -⟩ | ⟨s, hs, hrest⟩
  · exact ⟨s, hs.symm⟩
  · cases s with
    | nil =>
        rw [hs, List.append_nil]
    | cons x s =>
        rw [List.cons_append] at hrest
        obtain ⟨rfl, -⟩ := List.cons.inj hrest
        have hmem : c ∈ k := by
          rw [hs]
          simp
        exact absurd hmem hc

theorem Finds.find_append_separator (hf : Finds keys v find) (hd : Delimited mark keys) {c : α}
    (hc : ∀ k ∈ keys, c ∉ k) (a b : List α) : find (a ++ c :: b) = find a := by
  by_cases hkey : ∃ k ∈ keys, k <+: a
  · obtain ⟨k, hk, hbegins⟩ := hkey
    rw [hf.find_eq_some hd hk hbegins,
      hf.find_eq_some hd hk ((prefix_append_separator (hc k hk)).mpr hbegins)]
  · have hnone : ∀ k ∈ keys, ¬ k <+: a := fun k hk hbegins => hkey ⟨k, hk, hbegins⟩
    rw [hf.find_eq_none hnone, hf.find_eq_none fun k hk hbegins =>
      hnone k hk ((prefix_append_separator (hc k hk)).mp hbegins)]

/-- The two sides of a separator are replaced on their own. -/
theorem replace_append_separator (hf : Finds keys v find) (hd : Delimited mark keys) {c : α}
    (hc : ∀ k ∈ keys, c ∉ k) (a b : List α) :
    replace find 0 (a ++ c :: b) = replace find 0 a ++ c :: replace find 0 b := by
  -- generalized to the characters of a match that are still to be passed over
  suffices h : ∀ skip ≤ a.length,
      replace find skip (a ++ c :: b) = replace find skip a ++ c :: replace find 0 b from
    h 0 (Nat.zero_le _)
  induction a with
  | nil =>
      intro skip hskip
      obtain rfl : skip = 0 := Nat.le_zero.mp hskip
      have hnone : find (c :: b) = none := by
        apply hf.find_eq_none
        intro k hk hbegins
        obtain ⟨w, hw, -⟩ := hd.shape k hk
        rw [hw] at hbegins
        obtain ⟨rfl, -⟩ := List.cons_prefix_cons.mp hbegins
        exact hc k hk (hw ▸ List.mem_cons_self)
      rw [List.nil_append, replace_of_none hnone]
      rfl
  | cons x a ih =>
      intro skip hskip
      cases skip with
      | succ skip =>
          rw [List.cons_append, replace, replace]
          exact ih skip (Nat.le_of_succ_le_succ hskip)
      | zero =>
          have hsame := hf.find_append_separator hd hc (x :: a) b
          rw [List.cons_append] at hsame ⊢
          cases hfind : find (x :: a) with
          | none =>
              rw [replace_of_none hfind, replace_of_none (hsame.trans hfind),
                ih 0 (Nat.zero_le _), List.cons_append]
          | some r =>
              obtain ⟨k, hk, hbegins, rfl⟩ := hf.found hfind
              have hle := hbegins.length_le
              rw [List.length_cons] at hle
              rw [replace_of_some hfind, replace_of_some (hsame.trans hfind),
                ih (k.length - 1) (by omega), List.append_assoc]

/-- A replacement brings in what is in the values. -/
theorem not_mem_replace (hf : Finds keys v find) (hd : Delimited mark keys) {c : α}
    {a : List α} (hvalues : ∀ k ∈ keys, k <:+: a → c ∉ v k) (ha : c ∉ a) :
    c ∉ replace find 0 a := by
  obtain ⟨d, hat, rfl⟩ := Parts.exists_at hd a
  rw [replace_text hf hd hat, Parts.mem_fill ha]
  rintro ⟨k, hmem, hv⟩
  have hk := hat.mem_keys k hmem
  exact hvalues k hk ((hat.mem_keywords_iff hd hk).mp hmem) hv

variable [BEq α] [LawfulBEq α]

theorem length_splitOn (c : α) (l : List α) : (l.splitOn c).length = l.count c + 1 := by
  induction l with
  | nil => rfl
  | cons x l ih =>
      rw [List.splitOn_cons_eq_if_modifyHead]
      by_cases hx : x = c
      · rw [if_pos (beq_iff_eq.mpr hx), List.length_cons, ih, hx, List.count_cons_self]
      · rw [if_neg (by simpa using hx), List.length_modifyHead, ih, List.count_cons_of_ne hx]

theorem Parts.count_fill {c : α} {d : Parts α} (hc : ∀ k ∈ d.keywords, c ∉ k) :
    (d.fill v).count c = d.text.count c + (d.keywords.flatMap v).count c := by
  induction d with
  | last l => rfl
  | more l k rest ih =>
      have hk : k.count c = 0 := List.count_eq_zero.mpr (hc k List.mem_cons_self)
      have hrest := ih fun k hk => hc k (List.mem_cons_of_mem _ hk)
      simp only [Parts.fill_more, Parts.text_more, Parts.keywords, List.count_append,
        List.flatMap_cons, hrest, hk]
      omega

/-- Without the separator in the values, a text is split at the separators of its
    template. -/
theorem splitOn_replace (hf : Finds keys v find) (hd : Delimited mark keys) {c : α}
    (hc : ∀ k ∈ keys, c ∉ k) {cs : List α} (hvalues : ∀ k ∈ keys, k <:+: cs → c ∉ v k) :
    (replace find 0 cs).splitOn c = (cs.splitOn c).map (replace find 0) := by
  -- the induction is on the length: behind a separator the text is shorter
  induction hn : cs.length using Nat.strong_induction_on generalizing cs with
  | _ n ih =>
    by_cases hmem : c ∈ cs
    · obtain ⟨a, b, rfl, ha⟩ := List.eq_append_cons_of_mem hmem
      have hsplit : (a ++ c :: b).splitOn c = a :: b.splitOn c :=
        List.splitOn_append_cons_self_of_not_mem ha b
      have hshort : b.length < n := by
        rw [← hn, List.length_append, List.length_cons]
        omega
      have hfront : a <:+: a ++ c :: b := (List.prefix_append a _).isInfix
      have hb : b <:+: a ++ c :: b :=
        ((List.suffix_cons c b).trans (List.suffix_append a _)).isInfix
      have hrest := ih b.length hshort (fun k hk hin => hvalues k hk (hin.trans hb)) rfl
      have hnot : c ∉ replace find 0 a :=
        not_mem_replace hf hd (fun k hk hin => hvalues k hk (hin.trans hfront)) ha
      rw [replace_append_separator hf hd hc, hsplit,
        List.splitOn_append_cons_self_of_not_mem hnot, hrest, List.map_cons]
    · rw [List.splitOn_eq_singleton hmem,
        List.splitOn_eq_singleton (not_mem_replace hf hd hvalues hmem)]
      rfl

/-- **A text is split like its template exactly when no value that is filled in
    contains the separator.** -/
theorem splitOn_replace_iff (hf : Finds keys v find) (hd : Delimited mark keys) {c : α}
    (hc : ∀ k ∈ keys, c ∉ k) (cs : List α) :
    (replace find 0 cs).splitOn c = (cs.splitOn c).map (replace find 0) ↔
      ∀ k ∈ keys, k <:+: cs → c ∉ v k := by
  refine ⟨fun heq => ?_, splitOn_replace hf hd hc⟩
  -- the numbers of separators are the same, so the values have none
  obtain ⟨d, hat, rfl⟩ := Parts.exists_at hd cs
  have hlength := congrArg List.length heq
  rw [List.length_map, length_splitOn, length_splitOn, replace_text hf hd hat,
    Parts.count_fill fun k hk => hc k (hat.mem_keys k hk)] at hlength
  intro k hk hin
  have hmem := (hat.mem_keywords_iff hd hk).mpr hin
  have hnone : (d.keywords.flatMap v).count c = 0 := by omega
  exact fun hv => List.count_eq_zero.mp hnone (List.mem_flatMap.mpr ⟨k, hmem, hv⟩)

end Replace

/-! ## Keywords with a mark at the end -/

/-- A keyword that ends in a mark does not begin before the end of another one
    and end behind it. -/
theorem infix_append_of_mark {mark : α} {w v p : List α} (hw : mark ∉ w) :
    (w ++ [mark]) <:+: (v ++ [mark]) ++ p ↔
      (w ++ [mark]) <:+: v ++ [mark] ∨ (w ++ [mark]) <:+: p := by
  refine ⟨?_, ?_⟩
  · rintro ⟨l, r, h⟩
    rcases List.append_eq_append_iff.mp h with ⟨s, hs, -⟩ | ⟨s, hs, hp⟩
    · exact .inl ⟨l, s, hs.symm⟩
    · rcases List.eq_nil_or_concat s with rfl | ⟨s, x, rfl⟩
      · rw [List.append_nil] at hs
        exact .inl ⟨l, [], by rw [List.append_nil, hs]⟩
      · -- `w` ends behind the first mark, so it begins behind it, too
        rw [List.concat_eq_append] at hs hp
        have hends : (l ++ w) ++ [mark] = ((v ++ [mark]) ++ s) ++ [x] := by
          rw [List.append_assoc, hs]
          simp only [List.append_assoc]
        have hlast : l ++ w = (v ++ [mark]) ++ s := List.append_inj_left' hends rfl
        have hx : x = mark := by
          have hend := congrArg List.getLast? hs
          simpa [← List.append_assoc] using hend.symm
        rcases List.append_eq_append_iff.mp hlast with ⟨m, hm, hw'⟩ | ⟨m, hm, hs'⟩
        · rcases List.eq_nil_or_concat m with rfl | ⟨m, y, rfl⟩
          · refine .inr ⟨[], r, ?_⟩
            rw [hp, hw', hx]
            simp
          · rw [List.concat_eq_append] at hm
            have hy : y = mark := by
              have hend := congrArg List.getLast? hm
              simpa [← List.append_assoc] using hend.symm
            have hmem : mark ∈ w := by
              rw [hw', hy]
              simp
            exact absurd hmem hw
        · refine .inr ⟨m, r, ?_⟩
          rw [hp, hs', hx]
          simp
  · rintro (h | h)
    · exact h.trans (List.prefix_append ..).isInfix
    · exact h.trans (List.suffix_append ..).isInfix

end Keywords
