/-
  Scord.Wire.RoundTrip

  What is loaded of a value that was saved.  The classes that hold no job come
  back as they were, field by field.  A job comes back with whatever was in the
  memory for its slurm id, and jobs are on the wire in QoS entities.
-/
import Scord.Wire.Messages

namespace Scord.Wire

open Archive Archive.Serializer

/-! ## What comes back as it was -/

theorem lossless_adhocStorageType : adhocStorageType.Lossless := lossless_enumeration _

theorem lossless_pfsStorageType : pfsStorageType.Lossless := lossless_enumeration _

theorem lossless_transferMapping : transferMapping.Lossless := lossless_enumeration _

theorem lossless_node : node.Lossless := by
  intro n
  apply restores_uniquePtr
  exact (lossless_text n.hostname).bind ((lossless_enumeration _ n.nodeType).map _)

theorem lossless_dataset : dataset.Lossless := by
  intro d
  apply restores_uniquePtr
  exact (lossless_text d.id).map _

theorem lossless_datasetRoute : datasetRoute.Lossless := by
  intro r
  apply restores_uniquePtr
  exact (lossless_dataset r.source).bind ((lossless_dataset r.destination).map _)

theorem lossless_adhocResources : adhocResources.Lossless :=
  fun r => (lossless_vector lossless_node r.nodes).map _

theorem lossless_adhocCtx : adhocCtx.Lossless := by
  intro c
  refine (lossless_text c.controllerAddress).bind ?_
  refine (lossless_text c.dataStagerAddress).bind ?_
  refine (lossless_enumeration _ c.execMode).bind ?_
  refine (lossless_enumeration _ c.accessType).bind ?_
  exact (lossless_u32 c.walltime).bind ((lossless_bool c.shouldFlush).map _)

theorem lossless_adhocStorage : adhocStorage.Lossless := by
  intro s
  apply restores_uniquePtr
  refine (lossless_adhocStorageType s.type).bind ?_
  refine (lossless_text s.name).bind ?_
  refine (lossless_u64 s.id).bind ?_
  exact (lossless_adhocCtx s.context).bind ((lossless_adhocResources s.resources).map _)

theorem lossless_pfsCtx : pfsCtx.Lossless := fun c => (lossless_text c.mountPoint).map _

theorem lossless_pfsStorage : pfsStorage.Lossless := by
  intro s
  apply restores_uniquePtr
  refine (lossless_pfsStorageType s.type).bind ?_
  refine (lossless_text s.name).bind ?_
  exact (lossless_u64 s.id).bind ((lossless_pfsCtx s.context).map _)

theorem lossless_jobResources : jobResources.Lossless :=
  fun r => (lossless_vector lossless_node r.nodes).map _

theorem lossless_jobRequirements : jobRequirements.Lossless := by
  intro r
  refine (lossless_vector lossless_datasetRoute r.inputs).bind ?_
  refine (lossless_vector lossless_datasetRoute r.outputs).bind ?_
  refine (lossless_vector lossless_datasetRoute r.expectedOutputs).bind ?_
  exact (lossless_optional lossless_adhocStorage r.adhocStorage).map _

theorem lossless_jobInfo : jobInfo.Lossless := by
  intro i
  refine (lossless_text i.adhocControllerAddress).bind ?_
  exact (lossless_text i.uuid).bind ((lossless_u32 i.ioProcs).map _)

theorem lossless_transfer : transfer.Lossless :=
  fun id => restores_uniquePtr (lossless_u64 id)

theorem lossless_transferState : transferState.Lossless := by
  intro state
  apply restores_uniquePtr
  show transferStateType.Restores state state
  exact lossless_enumeration _ state

theorem lossless_genericResponse : genericResponse.Lossless :=
  fun r => (lossless_u64 r.opId).bind ((lossless_enumeration _ r.errorCode).map _)

theorem restores_responseWithValue {ν : Type} {s : Serializer ν} {r : ResponseWithValue ν}
    {v : Option ν} (h : (optional s).Restores r.value v) :
    (responseWithValue s).Restores r { r with value := v } :=
  (lossless_genericResponse ⟨r.opId, r.errorCode⟩).bind (h.map _)

/-! ## Jobs -/

def OfJob : QosEntity → Prop
  | .job _ => True
  | _ => False

/-- The entity with another slurm id, if it is a job. -/
def withSlurmId (c : SlurmJobId) : QosEntity → QosEntity
  | .job j => .job { j with slurmId := c }
  | e => e

namespace Ty

/-- No QoS entity in the value is a job. -/
def NoJob : (t : Ty) → t.Value → Prop
  | qosEntity, e => ¬ OfJob e
  | qosLimit, l => ∀ e ∈ QosLimit.entity l, ¬ OfJob e
  | responseWithValue t, r => ∀ x ∈ ResponseWithValue.value r, t.NoJob x
  | vector t, l => ∀ x ∈ (l : List t.Value), t.NoJob x
  | optional t, o => ∀ x ∈ (o : Option t.Value), t.NoJob x
  | pair t u, x => t.NoJob x.1 ∧ u.NoJob x.2
  | _, _ => True

/-- The value with one slurm id for all of its jobs. -/
def withSlurmId (c : SlurmJobId) : (t : Ty) → t.Value → t.Value
  | qosEntity, e => Wire.withSlurmId c e
  | qosLimit, l => { l with entity := l.entity.map (Wire.withSlurmId c) : QosLimit }
  | responseWithValue t, r =>
      { r with value := r.value.map (t.withSlurmId c) : ResponseWithValue t.Value }
  | vector t, l => List.map (t.withSlurmId c) l
  | optional t, o => Option.map (t.withSlurmId c) o
  | pair t u, x => (t.withSlurmId c x.1, u.withSlurmId c x.2)
  | _, x => x

end Ty

section Memory

variable {fresh : Nat → SlurmJobId} {c : SlurmJobId}

/-- The constructor's object, with the id that was read. -/
theorem loads_fresh (h : ∀ n, fresh n = c) (id : JobId) :
    Loads (do let unread ← get; return { id, slurmId := fresh unread.length }) []
      ({ id, slurmId := c } : Job) := by
  intro rest
  show some (({ id, slurmId := fresh rest.length } : Job), rest) = _
  rw [h]

/-- The id comes back, and the slurm id is what the memory holds. -/
theorem restores_job (h : ∀ n, fresh n = c) (j : Job) :
    (job fresh).Restores j { j with slurmId := c } := by
  apply restores_uniquePtr
  show Loads (jobImpl fresh).load (u64.save j.id) _
  rw [← List.append_nil (u64.save j.id)]
  exact (lossless_u64 j.id).bind (loads_fresh h j.id)

/-- An entity comes back as it was, or as a job with the slurm id that the memory
    holds. -/
theorem restores_qosEntity (e : QosEntity) (h : ¬ OfJob e ∨ ∀ n, fresh n = c) :
    (qosEntity fresh).Restores e (withSlurmId c e) := by
  have hdata : (qosData fresh).Restores e (withSlurmId c e) := by
    cases e with
    | dataset d => exact Loads.cons ((lossless_dataset d).map _)
    | node n => exact Loads.cons ((lossless_node n).map _)
    | job j => exact Loads.cons ((restores_job (h.resolve_left fun hn => hn trivial) j).map _)
    | transfer id => exact Loads.cons ((lossless_transfer id).map _)
  have hscope : scopeOf (withSlurmId c e) = scopeOf e := by
    cases e <;> rfl
  apply restores_uniquePtr
  refine (lossless_enumeration _ (scopeOf e)).bind ?_
  show Loads _ ((qosData fresh).save e) _
  rw [← List.append_nil ((qosData fresh).save e)]
  refine hdata.bind ?_
  rw [if_pos hscope]
  exact .pure _

theorem restores_qosLimit (l : QosLimit) (h : (∀ e ∈ l.entity, ¬ OfJob e) ∨ ∀ n, fresh n = c) :
    (qosLimit fresh).Restores l { l with entity := l.entity.map (withSlurmId c) } := by
  apply restores_uniquePtr
  refine (lossless_enumeration _ l.subclass).bind ?_
  refine (lossless_u64 l.value).bind (Loads.map ?_ _)
  cases hentity : l.entity with
  | none => exact restores_optional_none _
  | some e =>
      apply restores_optional_some
      apply restores_qosEntity
      exact h.imp_left fun hnone => hnone e hentity

/-- **What is loaded of a saved value**: the value itself, but for the slurm ids
    of its jobs. -/
theorem restores_serializer (t : Ty) (x : t.Value) (h : t.NoJob x ∨ ∀ n, fresh n = c) :
    (t.serializer fresh).Restores x (t.withSlurmId c x) := by
  induction t with
  | u64 => exact lossless_u64 x
  | text => exact lossless_text x
  | adhocStorageType => exact lossless_adhocStorageType x
  | pfsStorageType => exact lossless_pfsStorageType x
  | transferMapping => exact lossless_transferMapping x
  | node => exact lossless_node x
  | dataset => exact lossless_dataset x
  | datasetRoute => exact lossless_datasetRoute x
  | adhocCtx => exact lossless_adhocCtx x
  | adhocResources => exact lossless_adhocResources x
  | adhocStorage => exact lossless_adhocStorage x
  | pfsCtx => exact lossless_pfsCtx x
  | pfsStorage => exact lossless_pfsStorage x
  | jobResources => exact lossless_jobResources x
  | jobRequirements => exact lossless_jobRequirements x
  | jobInfo => exact lossless_jobInfo x
  | transfer => exact lossless_transfer x
  | transferState => exact lossless_transferState x
  | qosEntity => exact restores_qosEntity x h
  | qosLimit => exact restores_qosLimit x h
  | genericResponse => exact lossless_genericResponse x
  | responseWithValue t ih =>
      apply restores_responseWithValue
      cases hvalue : x.value with
      | none => exact restores_optional_none _
      | some v =>
          apply restores_optional_some
          exact ih v (h.imp_left fun hnone => hnone v hvalue)
  | vector t ih =>
      apply restores_vector
      show List.Forall₂ _ x (List.map (t.withSlurmId c) x)
      rw [List.forall₂_map_right_iff, List.forall₂_same]
      exact fun y hy => ih y (h.imp_left fun hnone => hnone y hy)
  | optional t ih =>
      cases x with
      | none => exact restores_optional_none _
      | some v =>
          apply restores_optional_some
          exact ih v (h.imp_left fun hnone => hnone v rfl)
  | pair t u iht ihu =>
      exact restores_pair (iht x.1 (h.imp_left And.left)) (ihu x.2 (h.imp_left And.right))

end Memory

/-! ## Losslessness -/

theorem withSlurmId_eq_self_iff {e : QosEntity} : (∀ c, withSlurmId c e = e) ↔ ¬ OfJob e := by
  cases e with
  | job j =>
      refine iff_of_false (fun h => ?_) fun h => h trivial
      -- no id is the next one
      have hnext := h (j.slurmId + 1)
      have hid : j.slurmId + 1 = j.slurmId := congrArg Job.slurmId (QosEntity.job.inj hnext)
      simp at hid
  | dataset d => exact iff_of_true (fun _ => rfl) nofun
  | node n => exact iff_of_true (fun _ => rfl) nofun
  | transfer id => exact iff_of_true (fun _ => rfl) nofun

section Containers

variable {γ α : Type} {f : γ → α → α}

theorem option_map_eq_self_iff (o : Option α) :
    (∀ c, o.map (f c) = o) ↔ ∀ x ∈ o, ∀ c, f c x = x := by
  cases o <;> simp

theorem list_map_eq_self_iff (l : List α) :
    (∀ c, l.map (f c) = l) ↔ ∀ x ∈ l, ∀ c, f c x = x := by
  induction l with
  | nil => simp
  | cons x l ih => simp [forall_and, ih]

end Containers

/-- A value depends on the slurm ids of its jobs, if it has any. -/
theorem Ty.withSlurmId_eq_self_iff (t : Ty) (x : t.Value) :
    (∀ c, t.withSlurmId c x = x) ↔ t.NoJob x := by
  induction t with
  | qosEntity => exact Wire.withSlurmId_eq_self_iff
  | qosLimit =>
      obtain ⟨entity, subclass, value⟩ := x
      have hentity := option_map_eq_self_iff (f := Wire.withSlurmId) entity
      simp only [Wire.withSlurmId_eq_self_iff] at hentity
      simpa [withSlurmId, NoJob] using hentity
  | responseWithValue t ih =>
      obtain ⟨opId, errorCode, value⟩ := x
      have hvalue := option_map_eq_self_iff (f := t.withSlurmId) value
      simp only [ih] at hvalue
      simpa [withSlurmId, NoJob] using hvalue
  | vector t ih =>
      have helements := list_map_eq_self_iff (f := t.withSlurmId) x
      simp only [ih] at helements
      exact helements
  | optional t ih =>
      have hvalue := option_map_eq_self_iff (f := t.withSlurmId) x
      simp only [ih] at hvalue
      exact hvalue
  | pair t u iht ihu =>
      obtain ⟨y, z⟩ := x
      simp only [withSlurmId, NoJob, Prod.mk.injEq, forall_and, iht, ihu]
  | _ => exact iff_of_true (fun _ => rfl) trivial

/-- **Wire encoding is lossless exactly for the values without a job**: whatever
    the memory holds, the whole archive is read, and the value is the one that
    was saved. -/
theorem load_save_iff (t : Ty) (x : t.Value) :
    (∀ fresh, (t.serializer fresh).load ((t.serializer fresh).save x) = some (x, [])) ↔
      t.NoJob x := by
  constructor
  · intro h
    rw [← t.withSlurmId_eq_self_iff]
    intro c
    have hsame := @restores_serializer (fun _ => c) c t x (.inr fun _ => rfl) []
    rw [List.append_nil, h] at hsame
    exact (Prod.mk.inj (Option.some.inj hsame)).1.symm
  · intro h fresh
    have hsame := @restores_serializer fresh 0 t x (.inl h) []
    rw [List.append_nil, (t.withSlurmId_eq_self_iff x).mpr h] at hsame
    exact hsame

/-- A job with the slurm id 42 comes back with what is in the memory, here with
    zero. -/
theorem not_lossless_job :
    (Ty.qosEntity.serializer fun _ => 0).load
        ((Ty.qosEntity.serializer fun _ => 0).save (.job ⟨1, 42⟩))
      ≠ some (QosEntity.job ⟨1, 42⟩, []) := by
  have hloaded : (Ty.qosEntity.serializer fun _ => 0).load
      ((Ty.qosEntity.serializer fun _ => 0).save (.job ⟨1, 42⟩))
        = some (QosEntity.job ⟨1, 0⟩, []) := rfl
  rw [hloaded]
  decide

end Scord.Wire
