/-
  Scord.Server.Resize

  Any number of `update_adhoc_storage` requests, interleaved.  The handler locks
  the manager three times, and holds no lock in between: it reads the old size,
  replaces the record, and looks the record up again for the controller.

  What the controller is told is put together from all three: the name of the
  request from the size that was read first, the resources from the record that
  was found last.  Handled one at a time, a request tells the controller about
  its own replacement.
-/
import Scord.Server.AdhocControl

namespace Scord

open ObjectStore StepSystem

/-! ## Requests in progress -/

/-- How far a request has got.  The size of the record that it replaced is not
    kept by the handler; it is recorded here to be compared with. -/
inductive ResizePhase
  | arrived
  | sized (oldResourcesSize : Nat)
  | updated (oldResourcesSize : Nat) (replaced : Option Nat)
  /-- `update_helper` has its copy of the record -/
  | found (oldResourcesSize : Nat) (replaced : Option Nat) (adhoc : AdhocStorageMetadata)
  | called (replaced : Option Nat) (call : ControllerCall)
  /-- an exception, because an `expected` was empty or no endpoint was found -/
  | threw

/-- An `update_adhoc_storage` request in progress. -/
structure Resize where
  adhocId : AdhocId
  newResources : AdhocResources
  phase : ResizePhase

structure ResizeWorld where
  manager : AdhocStorageManager
  requests : List Resize

inductive ResizeEvent
  | request (adhocId : AdhocId) (newResources : AdhocResources)
  | readSize (i : Nat)
  | replace (i : Nat)
  | reread (i : Nat)
  /-- the controller is called, if `lookup` finds its endpoint -/
  | call (i : Nat) (lookup : Bool)

namespace ResizeWorld

/-- The record that is registered under an id. -/
def record (w : ResizeWorld) (adhocId : AdhocId) : Option AdhocStorageMetadata :=
  match w.manager.find adhocId with
  | .ok p => w.manager.get? p
  | .error _ => none

/-- The request that `update_helper` sends to the controller. -/
def resizeCall (oldResourcesSize : Nat) (newResources : AdhocResources)
    (adhoc : AdhocStorageMetadata) : ControllerCall where
  rpcName := Server.resizeName (newResources.nodes.length > oldResourcesSize)
  address := adhoc.controllerAddress
  uuid := adhoc.uuid
  type := adhoc.adhocStorage.type
  resources := some adhoc.adhocStorage.resources

/-- Request `i` goes on to its next phase. -/
def advance (w : ResizeWorld) (i : Nat) (r : Resize) (phase : ResizePhase) : ResizeWorld :=
  { w with requests := w.requests.set i { r with phase := phase } }

/-- One step of one request. -/
def step (w : ResizeWorld) : ResizeEvent → Option ResizeWorld
  | .request adhocId newResources =>
      some { w with requests := w.requests ++ [⟨adhocId, newResources, .arrived⟩] }
  | .readSize i =>
      match w.requests[i]? with
      | some ⟨adhocId, res, .arrived⟩ =>
          match w.record adhocId with
          | some a =>
              some (w.advance i ⟨adhocId, res, .arrived⟩
                (.sized a.adhocStorage.resources.nodes.length))
          | none => some (w.advance i ⟨adhocId, res, .arrived⟩ .threw)
      | _ => none
  | .replace i =>
      match w.requests[i]? with
      | some ⟨adhocId, res, .sized old⟩ =>
          let replaced := (w.record adhocId).map fun a => a.adhocStorage.resources.nodes.length
          -- the error code of the update is only logged
          some ({ w with manager := (AdhocStorageManager.update w.manager adhocId res).1 }.advance
            i ⟨adhocId, res, .sized old⟩ (.updated old replaced))
      | _ => none
  | .reread i =>
      match w.requests[i]? with
      | some ⟨adhocId, res, .updated old replaced⟩ =>
          match w.record adhocId with
          | some a =>
              some (w.advance i ⟨adhocId, res, .updated old replaced⟩ (.found old replaced a))
          | none => some (w.advance i ⟨adhocId, res, .updated old replaced⟩ .threw)
      | _ => none
  | .call i lookup =>
      match w.requests[i]? with
      | some ⟨adhocId, res, .found old replaced a⟩ =>
          some (w.advance i ⟨adhocId, res, .found old replaced a⟩
            (if lookup then .called replaced (resizeCall old res a) else .threw))
      | _ => none

/-! ## One request at a time -/

/-- The calls that the controllers have received. -/
def calls (w : ResizeWorld) : List ControllerCall :=
  w.requests.filterMap fun r =>
    match r.phase with
    | .called _ c => some c
    | _ => none

/-- The steps of one request without another in between are the handler
    `update_adhoc_storage`: the same records, and the same call. -/
theorem run_updateAdhocStorage {H : Type} {s : Server H} {adhocId : AdhocId}
    {adhoc : AdhocStorageMetadata} (hreg : s.Registered adhocId adhoc) (env : Env H)
    (newResources : AdhocResources) :
    ∃ w, run step ⟨s.adhocManager, []⟩ [.request adhocId newResources, .readSize 0, .replace 0,
        .reread 0, .call 0 (env.lookup adhoc.controllerAddress)] = some w ∧
      w.manager = (s.updateAdhocStorage env adhocId newResources).server.adhocManager ∧
      w.calls = (s.updateAdhocStorage env adhocId newResources).calls := by
  have hcalls := (Server.updateAdhocStorage_of_registered hreg env newResources).1
  obtain ⟨p, hfind, hget⟩ := hreg
  have hmanager := Server.updateAdhocStorage_adhocManager env s hfind newResources
  have hupdate := AdhocStorageManager.update_of_find? hfind newResources
  -- the record before the replacement, and after it
  have hbefore : ∀ rs, record ⟨s.adhocManager, rs⟩ adhocId = some adhoc := by
    intro rs
    simp only [record, AdhocStorageManager.find_of_find? hfind, hget]
  have hafter : ∀ rs, record ⟨s.adhocManager.modify p fun a => a.update newResources, rs⟩ adhocId
      = some (adhoc.update newResources) := by
    intro rs
    have hfind' :
        AdhocStorageManager.find (s.adhocManager.modify p fun a => a.update newResources) adhocId
          = .ok p := AdhocStorageManager.find_of_find? hfind
    simp only [record, hfind', Registry.get?_modify, if_true, hget, Option.map_some]
  refine ⟨?_, ?_, ?_, ?_⟩
  case refine_1 => exact
    { manager := s.adhocManager.modify p fun a => a.update newResources
      requests := [⟨adhocId, newResources,
        if env.lookup adhoc.controllerAddress then
          .called (some adhoc.adhocStorage.resources.nodes.length)
            (resizeCall adhoc.adhocStorage.resources.nodes.length newResources
              (adhoc.update newResources))
        else .threw⟩] }
  case refine_2 =>
    simp only [run_cons, run_nil, step, Option.bind_some, List.nil_append,
      List.getElem?_cons_zero, hbefore, advance, List.set_cons_zero, hupdate, hafter,
      Option.map_some]
  case refine_3 => exact hmanager.symm
  case refine_4 =>
    rw [hcalls]
    unfold calls Server.callController
    rw [AdhocStorageMetadata.update_controllerAddress]
    by_cases hlookup : env.lookup adhoc.controllerAddress = true
    · simp only [hlookup, if_true, List.filterMap_cons, List.filterMap_nil]
      cases env.call _ <;> rfl
    · simp only [hlookup, Bool.false_eq_true, if_false, List.filterMap_cons, List.filterMap_nil]

/-! ## Interleaved requests -/

/-- The replacement of a record of this size by these resources increased its
    node count. -/
def Grew (newResources : AdhocResources) (replaced : Option Nat) : Prop :=
  ∃ n, replaced = some n ∧ newResources.nodes.length > n

/-- The call carries the request's own new resources; it asks to expand only if
    the replacement that the request made increased the node count, and to
    shrink only if it did not. -/
structure Truthful (newResources : AdhocResources) (replaced : Option Nat)
    (c : ControllerCall) : Prop where
  payload : c.resources = some newResources
  expand : c.rpcName = "ADM_expand_adhoc_storage" → Grew newResources replaced
  shrink : c.rpcName = "ADM_shrink_adhoc_storage" → ¬ Grew newResources replaced

/-- Every call that was made is truthful. -/
def CallsMade (w : ResizeWorld) : Prop :=
  ∀ r ∈ w.requests, ∀ replaced c, r.phase = .called replaced c →
    Truthful r.newResources replaced c

/-- A request that has got this far makes a truthful call, or has made one. -/
def CommittedTo (r : Resize) : Prop :=
  match r.phase with
  | .found old replaced a => Truthful r.newResources replaced (resizeCall old r.newResources a)
  | .called replaced c => Truthful r.newResources replaced c
  | _ => True

def CallsCommitted (w : ResizeWorld) : Prop := ∀ r ∈ w.requests, CommittedTo r

/-- No other request has come in between, as far as it matters: when the record
    is read again, it holds the request's own resources, and the size that was
    read first is on the same side of the new size as the one replaced. -/
def Undisturbed (w : ResizeWorld) : ResizeEvent → Prop
  | .reread i => ∀ adhocId res old replaced a,
      w.requests[i]? = some ⟨adhocId, res, .updated old replaced⟩ →
      w.record adhocId = some a →
      a.adhocStorage.resources = res ∧ (res.nodes.length > old ↔ Grew res replaced)
  | _ => True

/-- The two names are different, and the handler uses no other. -/
theorem resizeName_eq_expand {b : Bool} :
    Server.resizeName b = "ADM_expand_adhoc_storage" ↔ b = true := by
  cases b <;> decide

theorem resizeName_eq_shrink {b : Bool} :
    Server.resizeName b = "ADM_shrink_adhoc_storage" ↔ b = false := by
  cases b <;> decide

/-- The call that is put together from the size read first and the record found
    last is truthful exactly when these two agree with the replacement. -/
theorem truthful_resizeCall_iff {old : Nat} {replaced : Option Nat} {res : AdhocResources}
    {a : AdhocStorageMetadata} :
    Truthful res replaced (resizeCall old res a) ↔
      a.adhocStorage.resources = res ∧ (res.nodes.length > old ↔ Grew res replaced) := by
  have hname : (resizeCall old res a).rpcName
      = Server.resizeName (decide (res.nodes.length > old)) := rfl
  refine ⟨fun h => ⟨Option.some.inj h.payload, ?_⟩, fun h => ⟨congrArg some h.1, ?_, ?_⟩⟩
  · refine ⟨fun hgt => h.expand ?_, fun hgrew => ?_⟩
    · rw [hname, resizeName_eq_expand]
      exact decide_eq_true hgt
    · by_contra hle
      refine h.shrink ?_ hgrew
      rw [hname, resizeName_eq_shrink]
      exact decide_eq_false hle
  · intro hexpand
    rw [hname, resizeName_eq_expand] at hexpand
    exact h.2.mp (of_decide_eq_true hexpand)
  · intro hshrink hgrew
    rw [hname, resizeName_eq_shrink] at hshrink
    exact of_decide_eq_false hshrink (h.2.mpr hgrew)

/-- One request moves on: the others stay as committed as they were. -/
theorem callsCommitted_advance_iff {w : ResizeWorld} {i : Nat} {r : Resize}
    {phase : ResizePhase} (h : w.CallsCommitted) (hi : w.requests[i]? = some r) :
    (w.advance i r phase).CallsCommitted ↔ CommittedTo { r with phase := phase } := by
  refine ⟨fun hall => hall _ ?_, fun hr r' hr' => ?_⟩
  · obtain ⟨hlt, -⟩ := List.getElem?_eq_some_iff.mp hi
    exact List.mem_set hlt _
  · rcases List.mem_or_eq_of_mem_set hr' with hold | rfl
    · exact h r' hold
    · exact hr

theorem callsCommitted_readSize {w w' : ResizeWorld} {i : Nat} (h : w.CallsCommitted)
    (hs : w.step (.readSize i) = some w') : w'.CallsCommitted := by
  simp only [step] at hs
  split at hs
  case h_2 => cases hs
  case h_1 adhocId res hi =>
    split at hs
    · obtain rfl := Option.some.inj hs
      exact (callsCommitted_advance_iff h hi).mpr trivial
    · obtain rfl := Option.some.inj hs
      exact (callsCommitted_advance_iff h hi).mpr trivial

theorem callsCommitted_replace {w w' : ResizeWorld} {i : Nat} (h : w.CallsCommitted)
    (hs : w.step (.replace i) = some w') : w'.CallsCommitted := by
  simp only [step] at hs
  split at hs
  case h_2 => cases hs
  case h_1 adhocId res old hi =>
    obtain rfl := Option.some.inj hs
    -- the commitments are about the requests only, not about the records
    exact (callsCommitted_advance_iff (w := ⟨_, w.requests⟩) h hi).mpr trivial

/-- Once the record has been found, the call is settled. -/
theorem callsCommitted_call {w w' : ResizeWorld} {i : Nat} {lookup : Bool}
    (h : w.CallsCommitted) (hs : w.step (.call i lookup) = some w') : w'.CallsCommitted := by
  simp only [step] at hs
  split at hs
  case h_2 => cases hs
  case h_1 adhocId res old replaced a hi =>
    obtain rfl := Option.some.inj hs
    refine (callsCommitted_advance_iff h hi).mpr ?_
    have hcommitted := h _ (List.mem_of_getElem? hi)
    cases lookup with
    | true => exact hcommitted
    | false => trivial

/-- The call is settled when the record is found again. -/
theorem callsCommitted_reread_iff {w w' : ResizeWorld} {i : Nat} (h : w.CallsCommitted)
    (hs : w.step (.reread i) = some w') :
    w'.CallsCommitted ↔ w.Undisturbed (.reread i) := by
  simp only [step] at hs
  split at hs
  case h_2 => cases hs
  case h_1 adhocId res old replaced hi =>
    have hsame : ∀ {adhocId' res' old' replaced'},
        w.requests[i]? = some ⟨adhocId', res', .updated old' replaced'⟩ →
        adhocId' = adhocId ∧ res' = res ∧ old' = old ∧ replaced' = replaced := by
      intro adhocId' res' old' replaced' hi'
      cases hi.symm.trans hi'
      exact ⟨rfl, rfl, rfl, rfl⟩
    cases hrecord : w.record adhocId with
    | none =>
        simp only [hrecord] at hs
        obtain rfl := Option.some.inj hs
        refine iff_of_true ((callsCommitted_advance_iff h hi).mpr trivial) ?_
        intro adhocId' res' old' replaced' a hi' ha
        obtain ⟨rfl, -⟩ := hsame hi'
        rw [hrecord] at ha
        cases ha
    | some a =>
        simp only [hrecord] at hs
        obtain rfl := Option.some.inj hs
        refine (callsCommitted_advance_iff h hi).trans (truthful_resizeCall_iff.trans ⟨?_, ?_⟩)
        · intro hagree adhocId' res' old' replaced' a' hi' ha'
          obtain ⟨rfl, rfl, rfl, rfl⟩ := hsame hi'
          obtain rfl : a' = a := Option.some.inj (ha'.symm.trans hrecord)
          exact hagree
        · exact fun hall => hall adhocId res old replaced a hi hrecord

theorem callsCommitted_step_iff {w w' : ResizeWorld} {e : ResizeEvent} (h : w.CallsCommitted)
    (hs : w.step e = some w') : w'.CallsCommitted ↔ w.Undisturbed e := by
  cases e with
  | request adhocId res =>
      obtain rfl := Option.some.inj hs
      refine iff_of_true (fun r hr => ?_) trivial
      rcases List.mem_append.mp hr with hold | hnew
      · exact h r hold
      · rw [List.mem_singleton] at hnew
        rw [hnew]
        trivial
  | readSize i => exact iff_of_true (callsCommitted_readSize h hs) trivial
  | replace i => exact iff_of_true (callsCommitted_replace h hs) trivial
  | reread i => exact callsCommitted_reread_iff h hs
  | call i lookup => exact iff_of_true (callsCommitted_call h hs) trivial

theorem CallsCommitted.callsMade {w : ResizeWorld} (h : w.CallsCommitted) : w.CallsMade := by
  intro r hr replaced c hphase
  have hcommitted := h r hr
  unfold CommittedTo at hcommitted
  rw [hphase] at hcommitted
  exact hcommitted

/-- **What the controllers are told.**  A run whose requests are undisturbed makes
    truthful calls only; and all requests of a run are committed to truthful
    calls exactly when they are undisturbed. -/
theorem callsMade_of_undisturbed (m : AdhocStorageManager) (es : List ResizeEvent) :
    (StepsMeet step Undisturbed ⟨m, []⟩ es → Always step CallsMade ⟨m, []⟩ es) ∧
      (Always step CallsCommitted ⟨m, []⟩ es ↔ StepsMeet step Undisturbed ⟨m, []⟩ es) := by
  have hiff : Always step CallsCommitted ⟨m, []⟩ es ↔ StepsMeet step Undisturbed ⟨m, []⟩ es :=
    always_iff (I := fun _ => True) (fun _ _ _ _ _ => trivial)
      (fun _ _ _ _ h hs => callsCommitted_step_iff h hs) es ⟨m, []⟩ trivial fun _ hr =>
        absurd hr List.not_mem_nil
  exact ⟨fun h => (hiff.mpr h).mono fun _ hc => hc.callsMade, hiff⟩

/-- A storage of two nodes. -/
def twoNodes : AdhocStorageManager :=
  (AdhocStorageManager.create Registry.empty "" .gekkofs "fs" sampleCtx
    ⟨[⟨"n0", .regular⟩, ⟨"n1", .regular⟩]⟩).1

/-- Request 0 asks for four nodes, and request 1 for three.  Both read the old
    size first, and both replace the record before either reads it again. -/
def twoResizes : List ResizeEvent :=
  [.request 0 ⟨[⟨"n0", .regular⟩, ⟨"n1", .regular⟩, ⟨"n2", .regular⟩, ⟨"n3", .regular⟩]⟩,
    .request 0 ⟨[⟨"n0", .regular⟩, ⟨"n1", .regular⟩, ⟨"n2", .regular⟩]⟩,
    .readSize 0, .readSize 1, .replace 0, .replace 1, .reread 0, .reread 1,
    .call 0 true, .call 1 true]

/-- The same requests, one after the other. -/
def resizesInTurn : List ResizeEvent :=
  [.request 0 ⟨[⟨"n0", .regular⟩, ⟨"n1", .regular⟩, ⟨"n2", .regular⟩, ⟨"n3", .regular⟩]⟩,
    .readSize 0, .replace 0, .reread 0, .call 0 true,
    .request 0 ⟨[⟨"n0", .regular⟩, ⟨"n1", .regular⟩, ⟨"n2", .regular⟩]⟩,
    .readSize 1, .replace 1, .reread 1, .call 1 true]

theorem callsMade_of_undisturbed_resizesInTurn :
    Always step CallsMade ⟨twoNodes, []⟩ resizesInTurn := by
  refine (callsMade_of_undisturbed twoNodes resizesInTurn).1 <|
    .cons rfl trivial <| .cons rfl trivial <| .cons rfl trivial <| .cons rfl ?_ <|
    .cons rfl trivial <| .cons rfl trivial <| .cons rfl trivial <| .cons rfl trivial <|
    .cons rfl ?_ <| .cons rfl trivial trivial
  -- each reads back its own resources, and the size that it has replaced
  · intro _ _ _ _ _ hr ha
    cases hr
    cases ha
    exact ⟨rfl, iff_of_true (by decide) ⟨2, rfl, by decide⟩⟩
  · intro _ _ _ _ _ hr ha
    cases hr
    cases ha
    refine ⟨rfl, iff_of_false (by decide) ?_⟩
    rintro ⟨n, hn, hgt⟩
    cases hn
    exact absurd hgt (by decide)

/-- Request 0 carries the resources of request 1, and request 1 asks to expand
    although it took a node away. -/
theorem not_callsMade_twoResizes : ¬ Always step CallsMade ⟨twoNodes, []⟩ twoResizes := by
  intro hall
  obtain ⟨w, hw⟩ : ∃ w, run step ⟨twoNodes, []⟩ twoResizes = some w := ⟨_, rfl⟩
  have hmade := hall.last hw
  cases hw
  have htruthful := hmade _ (List.mem_cons_of_mem _ List.mem_cons_self) _ _ rfl
  obtain ⟨n, hn, hgt⟩ := htruthful.expand rfl
  cases hn
  exact absurd hgt (by decide)

end ResizeWorld

end Scord
