/-
  Scord.Plugin.Stubs

  The stubs of `detail/impl.cpp` that return a value, from the response on, and
  the C functions over them (`c_wrapper.cpp`).

  A stub prints the response before it looks at the error code.  The arguments
  of the print are evaluated only if the process has a default logger, and one
  of them is `value()`, which is `noexcept`.
-/
import Scord.Plugin.Library

namespace Scord.Plugin

/-! ## The stubs -/

namespace Detail

/-- What the value-returning stubs make of a response, or of a call that failed:
    the error code, or a result built from the value. -/
def stub {ν α : Type} (result : ν → α) (logger : Bool)
    (answer : Option (ResponseWithValue ν)) : Outcome (Except ErrorCode α) :=
  (valueOf logger answer).map fun rv => rv.map result

def query : Bool → Option (ResponseWithValue JobInfo) → Outcome (Except ErrorCode JobInfo) :=
  stub fun info => info

def registerJob (slurmId : SlurmJobId) :
    Bool → Option ResponseWithId → Outcome (Except ErrorCode Job) :=
  stub fun id => ⟨id, slurmId⟩

def registerAdhocStorage (name : String) (type : AdhocStorageType) (ctx : AdhocCtx)
    (resources : AdhocResources) :
    Bool → Option ResponseWithId → Outcome (Except ErrorCode AdhocStorage) :=
  stub fun id => ⟨type, name, id, ctx, resources⟩

def registerPfsStorage (name : String) (type : PfsStorageType) (ctx : PfsCtx) :
    Bool → Option ResponseWithId → Outcome (Except ErrorCode PfsStorage) :=
  stub fun id => ⟨type, name, id, ctx⟩

def deployAdhocStorage :
    Bool → Option (ResponseWithValue String) → Outcome (Except ErrorCode String) :=
  stub fun path => path

def transferDatasets : Bool → Option ResponseWithId → Outcome (Except ErrorCode TransferId) :=
  stub fun tx => tx

def queryTransfer : Bool → Option (ResponseWithValue TransferState) →
    Outcome (Except ErrorCode TransferState) :=
  stub fun state => state

end Detail

/-! ## The C functions

Each returns its code and what it writes through its last parameter, if
anything. -/

section CFunctions

variable (logger allocates : Bool)

/-- `if(!rv) return rv.error(); *out = static_cast<ADM_...>(rv.value());`, where
    the handle is null if it cannot be allocated. -/
def returnHandle {α : Type} (rv : Except ErrorCode α) : ErrorCode × Option (Option α) :=
  match rv with
  | .error ec => (ec, none)
  | .ok a => (.success, some (if allocates then some a else none))

/-- `ADM_register_job` -/
def admRegisterJob (slurmId : SlurmJobId) (answer : Option ResponseWithId) :
    Outcome (ErrorCode × Option (Option Job)) :=
  (Detail.registerJob slurmId logger answer).map (returnHandle allocates)

/-- `ADM_register_adhoc_storage` -/
def admRegisterAdhocStorage (name : String) (type : AdhocStorageType) (ctx : AdhocCtx)
    (resources : AdhocResources) (answer : Option ResponseWithId) :
    Outcome (ErrorCode × Option (Option AdhocStorage)) :=
  (Detail.registerAdhocStorage name type ctx resources logger answer).map
    (returnHandle allocates)

/-- `ADM_register_pfs_storage` -/
def admRegisterPfsStorage (name : String) (type : PfsStorageType) (ctx : PfsCtx)
    (answer : Option ResponseWithId) : Outcome (ErrorCode × Option (Option PfsStorage)) :=
  (Detail.registerPfsStorage name type ctx logger answer).map (returnHandle allocates)

/-- `ADM_deploy_adhoc_storage`: the path is null unless the code is
    `ADM_SUCCESS`. -/
def admDeployAdhocStorage (answer : Option (ResponseWithValue String)) :
    Outcome (ErrorCode × Option (Option String)) :=
  (Detail.deployAdhocStorage logger answer).map fun rv =>
    match rv with
    | .error ec => (ec, some none)
    | .ok path => if allocates then (.success, some (some path)) else (.outOfMemory, some none)

/-- `ADM_transfer_datasets` and `ADM_transfer_datasets_1`, where `wait` is what
    the loop over the state of the transfer returns, if there is one. -/
def admTransferDatasets (wait : TransferId → Outcome ErrorCode)
    (answer : Option ResponseWithId) : Outcome (ErrorCode × Option (Option TransferId)) := do
  match ← Detail.transferDatasets logger answer with
  | .error ec => return (ec, none)
  | .ok tx =>
      let handle := if allocates then some tx else none
      let ec ← wait tx
      return (ec, some handle)

end CFunctions

/-! ## All of them -/

/-- The value-returning stubs, with the arguments that go into their results. -/
inductive Stub
  | query
  | registerJob (slurmId : SlurmJobId)
  | registerAdhocStorage (name : String) (type : AdhocStorageType) (ctx : AdhocCtx)
      (resources : AdhocResources)
  | registerPfsStorage (name : String) (type : PfsStorageType) (ctx : PfsCtx)
  | deployAdhocStorage
  | transferDatasets
  | queryTransfer

namespace Stub

/-- What a response carries. -/
abbrev Value : Stub → Type
  | query => JobInfo
  | registerJob _ => UInt64
  | registerAdhocStorage _ _ _ _ => UInt64
  | registerPfsStorage _ _ _ => UInt64
  | deployAdhocStorage => String
  | transferDatasets => UInt64
  | queryTransfer => TransferState

/-- What the caller gets. -/
abbrev Result : Stub → Type
  | query => JobInfo
  | registerJob _ => Job
  | registerAdhocStorage _ _ _ _ => AdhocStorage
  | registerPfsStorage _ _ _ => PfsStorage
  | deployAdhocStorage => String
  | transferDatasets => TransferId
  | queryTransfer => TransferState

def call : (f : Stub) → Bool → Option (ResponseWithValue f.Value) →
    Outcome (Except ErrorCode f.Result)
  | query => Detail.query
  | registerJob slurmId => Detail.registerJob slurmId
  | registerAdhocStorage name type ctx res => Detail.registerAdhocStorage name type ctx res
  | registerPfsStorage name type ctx => Detail.registerPfsStorage name type ctx
  | deployAdhocStorage => Detail.deployAdhocStorage
  | transferDatasets => Detail.transferDatasets
  | queryTransfer => Detail.queryTransfer

/-- The code that the C function over the stub returns.  There is none over
    `query` and `query_transfer`. -/
def returnCode (logger allocates : Bool) (wait : TransferId → Outcome ErrorCode) :
    (f : Stub) → Option (ResponseWithValue f.Value) → Option (Outcome ErrorCode)
  | query, _ => none
  | registerJob slurmId, answer =>
      some ((admRegisterJob logger allocates slurmId answer).map Prod.fst)
  | registerAdhocStorage name type ctx res, answer =>
      some ((admRegisterAdhocStorage logger allocates name type ctx res answer).map Prod.fst)
  | registerPfsStorage name type ctx, answer =>
      some ((admRegisterPfsStorage logger allocates name type ctx answer).map Prod.fst)
  | deployAdhocStorage, answer =>
      some ((admDeployAdhocStorage logger allocates answer).map Prod.fst)
  | transferDatasets, answer =>
      some ((admTransferDatasets logger allocates wait answer).map Prod.fst)
  | queryTransfer, _ => none

end Stub

/-! ## What becomes of an error -/

section Errors

variable {ν α : Type} {resp : ResponseWithValue ν}

/-- An error is handed over, unless it is printed without a value. -/
theorem valueOf_error (hec : resp.errorCode ≠ .success) (logger : Bool) :
    valueOf logger (some resp)
      = if logger && resp.value.isNone then .error .terminates
        else .ok (.error resp.errorCode) := by
  have hfalse : resp.errorCode.toBool = false := ErrorCode.toBool_eq_false.mpr hec
  show (if logger && resp.value.isNone then _ else _) = _
  rw [hfalse]
  rfl

theorem stub_error (result : ν → α) (hec : resp.errorCode ≠ .success) (logger : Bool) :
    Detail.stub result logger (some resp)
      = if logger && resp.value.isNone then .error .terminates
        else .ok (.error resp.errorCode) := by
  unfold Detail.stub
  rw [valueOf_error hec]
  split <;> rfl

end Errors

/-- **What a stub makes of an error**, whichever it is. -/
theorem Stub.call_error (f : Stub) {resp : ResponseWithValue f.Value}
    (hec : resp.errorCode ≠ .success) (logger : Bool) :
    f.call logger (some resp)
      = if logger && resp.value.isNone then .error .terminates
        else .ok (.error resp.errorCode) := by
  cases f with
  | query => exact stub_error _ hec logger
  | registerJob slurmId => exact stub_error _ hec logger
  | registerAdhocStorage name type ctx res => exact stub_error _ hec logger
  | registerPfsStorage name type ctx => exact stub_error _ hec logger
  | deployAdhocStorage => exact stub_error _ hec logger
  | transferDatasets => exact stub_error _ hec logger
  | queryTransfer => exact stub_error _ hec logger

/-- The C function returns the error that its stub returns. -/
theorem Stub.returnCode_of_call (f : Stub) {logger allocates : Bool}
    {wait : TransferId → Outcome ErrorCode} {answer : Option (ResponseWithValue f.Value)}
    {ec : ErrorCode} (h : f.call logger answer = .ok (.error ec)) :
    ∀ code ∈ f.returnCode logger allocates wait answer, code = .ok ec := by
  cases f with
  | query => exact nofun
  | queryTransfer => exact nofun
  | registerJob slurmId =>
      have hstub : Detail.registerJob slurmId logger answer = .ok (.error ec) := h
      simp only [returnCode, admRegisterJob, hstub]
      rintro code ⟨⟩
      rfl
  | registerAdhocStorage name type ctx res =>
      have hstub : Detail.registerAdhocStorage name type ctx res logger answer
        = .ok (.error ec) := h
      simp only [returnCode, admRegisterAdhocStorage, hstub]
      rintro code ⟨⟩
      rfl
  | registerPfsStorage name type ctx =>
      have hstub : Detail.registerPfsStorage name type ctx logger answer = .ok (.error ec) := h
      simp only [returnCode, admRegisterPfsStorage, hstub]
      rintro code ⟨⟩
      rfl
  | deployAdhocStorage =>
      have hstub : Detail.deployAdhocStorage logger answer = .ok (.error ec) := h
      simp only [returnCode, admDeployAdhocStorage, hstub]
      rintro code ⟨⟩
      rfl
  | transferDatasets =>
      have hstub : Detail.transferDatasets logger answer = .ok (.error ec) := h
      simp only [returnCode, admTransferDatasets, hstub]
      rintro code ⟨⟩
      rfl

/-! ## The errors of the server -/

/-- The stubs whose handlers put a value into their error responses: an empty
    path, or the id 0. -/
def Stub.ErrorsCarryValue : Stub → Prop
  | .registerPfsStorage _ _ _ => True
  | .deployAdhocStorage => True
  | _ => False

/-- `resp` is what the handler behind the stub `f` responds to a request. -/
inductive RespondedBy {H : Type} (env : Env H) (s : Server H) :
    (f : Stub) → ResponseWithValue f.Value → Prop
  | query {jobId : SlurmJobId} {resp : ResponseWithValue JobInfo}
      (h : (s.query jobId).outcome = .ok resp) : RespondedBy env s .query resp
  | registerJob {res : JobResources} {req : JobRequirements} {slurmId : SlurmJobId}
      {resp : ResponseWithId} (h : (s.registerJob env res req slurmId).outcome = .ok resp) :
      RespondedBy env s (.registerJob slurmId) resp
  | registerAdhocStorage {name : String} {type : AdhocStorageType} {ctx : AdhocCtx}
      {res : AdhocResources} {resp : ResponseWithId}
      (h : (s.registerAdhocStorage env name type ctx res).outcome = .ok resp) :
      RespondedBy env s (.registerAdhocStorage name type ctx res) resp
  | registerPfsStorage {name : String} {type : PfsStorageType} {ctx : PfsCtx}
      {resp : ResponseWithId} (h : (s.registerPfsStorage name type ctx).outcome = .ok resp) :
      RespondedBy env s (.registerPfsStorage name type ctx) resp
  | deployAdhocStorage {adhocId : AdhocId} {resp : ResponseWithValue String}
      (h : (s.deployAdhocStorage env adhocId).outcome = .ok resp) :
      RespondedBy env s .deployAdhocStorage resp
  | transferDatasets {jobId : JobId} {sources targets : List Dataset} {limits : List QosLimit}
      {resp : ResponseWithId}
      (h : (s.transferDatasets env jobId sources targets limits).outcome = .ok resp) :
      RespondedBy env s .transferDatasets resp
  | queryTransfer {jobId : JobId} {txId : TransferId} {resp : ResponseWithValue TransferState}
      (h : (s.queryTransfer env jobId txId).outcome = .ok resp) :
      RespondedBy env s .queryTransfer resp

/-- The errors among the responses have no value. -/
def ErrorsLackValue {ν : Type} (x : Outcome (ResponseWithValue ν)) : Prop :=
  ∀ resp, x = .ok resp → resp.errorCode ≠ .success → resp.value = none

section Handlers

variable {H : Type} (env : Env H) (s : Server H)

theorem errorsLackValue_of_none {ν : Type} (opId : UInt64) (ec : ErrorCode) :
    ErrorsLackValue (.ok (⟨opId, ec, none⟩ : ResponseWithValue ν)) := by
  rintro resp ⟨⟩ _
  rfl

theorem errorsLackValue_of_success {ν : Type} (opId : UInt64) (value : Option ν) :
    ErrorsLackValue (.ok ⟨opId, .success, value⟩) := by
  rintro resp ⟨⟩ hec
  exact absurd rfl hec

theorem errorsLackValue_of_fault {ν : Type} (fault : Fault) :
    ErrorsLackValue (.error fault : Outcome (ResponseWithValue ν)) := by
  intro resp h
  cases h

theorem query_errorsLackValue (jobId : SlurmJobId) : ErrorsLackValue (s.query jobId).outcome := by
  unfold Server.query
  simp only
  split
  · exact errorsLackValue_of_none _ _
  · split
    · exact errorsLackValue_of_fault _
    · split
      · exact errorsLackValue_of_fault _
      · exact errorsLackValue_of_none _ _
      · exact errorsLackValue_of_success _ _

theorem registerJob_errorsLackValue (res : JobResources) (req : JobRequirements)
    (slurmId : SlurmJobId) : ErrorsLackValue (s.registerJob env res req slurmId).outcome := by
  unfold Server.registerJob
  simp only
  split
  · exact errorsLackValue_of_none _ _
  · split
    · exact errorsLackValue_of_none _ _
    · split
      · exact errorsLackValue_of_fault _
      · split
        · split
          · exact errorsLackValue_of_fault _
          · -- Redis may not take the record
            simp only
            split
            · exact errorsLackValue_of_success _ _
            · exact errorsLackValue_of_fault _
        · exact errorsLackValue_of_success _ _

theorem registerAdhocStorage_errorsLackValue (name : String) (type : AdhocStorageType)
    (ctx : AdhocCtx) (res : AdhocResources) :
    ErrorsLackValue (s.registerAdhocStorage env name type ctx res).outcome := by
  unfold Server.registerAdhocStorage
  simp only
  split
  · exact errorsLackValue_of_none _ _
  · split
    · exact errorsLackValue_of_fault _
    · exact errorsLackValue_of_success _ _

theorem transferDatasets_errorsLackValue (jobId : JobId) (sources targets : List Dataset)
    (limits : List QosLimit) :
    ErrorsLackValue (s.transferDatasets env jobId sources targets limits).outcome := by
  unfold Server.transferDatasets
  simp only
  split
  · exact errorsLackValue_of_fault _
  · exact errorsLackValue_of_none _ _
  · split
    · exact errorsLackValue_of_fault _
    · split
      · exact errorsLackValue_of_none _ _
      · split
        · exact errorsLackValue_of_fault _
        · exact errorsLackValue_of_success _ _

theorem queryTransfer_errorsLackValue (jobId : JobId) (txId : TransferId) :
    ErrorsLackValue (s.queryTransfer env jobId txId).outcome := by
  unfold Server.queryTransfer
  simp only
  split
  · exact errorsLackValue_of_fault _
  · exact errorsLackValue_of_none _ _
  · split
    · exact errorsLackValue_of_none _ _
    · simp only
      cases s.createRpc.1.transferStateOf env _ with
      | error fault => exact errorsLackValue_of_fault _
      | ok state => exact errorsLackValue_of_success _ _

theorem registerPfsStorage_value (name : String) (type : PfsStorageType) (ctx : PfsCtx)
    {resp : ResponseWithId} (h : (s.registerPfsStorage name type ctx).outcome = .ok resp) :
    resp.value.isSome = true := by
  unfold Server.registerPfsStorage at h
  simp only at h
  split at h
  · cases h
    rfl
  · split at h
    · cases h
    · cases h
      rfl

/-- The end of a deployment sends the response it was given, or none. -/
theorem eq_of_finish {ρ : Type} {adhocId : AdhocId} {fields : List (String × String)}
    {ec : ErrorCode} {resp resp' : ρ} {calls : List ControllerCall}
    (h : (Server.finish env s adhocId fields ec resp calls).outcome = .ok resp') :
    resp' = resp := by
  unfold Server.finish at h
  split at h
  · split at h
    · cases h
    · simp only at h
      split at h
      · cases h
        rfl
      · cases h
  · cases h
    rfl

theorem deployAdhocStorage_value (adhocId : AdhocId) {resp : ResponseWithValue String}
    (h : (s.deployAdhocStorage env adhocId).outcome = .ok resp) : resp.value.isSome = true := by
  unfold Server.deployAdhocStorage at h
  simp only at h
  split at h
  · rw [eq_of_finish env _ h]
    rfl
  · split at h
    · cases h
    · split at h
      · cases h
      · rw [eq_of_finish env _ h]
        rfl
      · rw [eq_of_finish env _ h]
        rfl

end Handlers

/-- **Which errors of the server carry a value.** -/
theorem RespondedBy.error_value {H : Type} {env : Env H} {s : Server H} {f : Stub}
    {resp : ResponseWithValue f.Value} (h : RespondedBy env s f resp)
    (hec : resp.errorCode ≠ .success) : resp.value.isSome = true ↔ f.ErrorsCarryValue := by
  have hnone : resp.value = none → ¬ f.ErrorsCarryValue →
      (resp.value.isSome = true ↔ f.ErrorsCarryValue) := by
    intro hvalue hf
    rw [hvalue]
    exact iff_of_false (by simp) hf
  cases h with
  | query h => exact hnone (query_errorsLackValue s _ _ h hec) not_false
  | registerJob h => exact hnone (registerJob_errorsLackValue env s _ _ _ _ h hec) not_false
  | registerAdhocStorage h =>
      exact hnone (registerAdhocStorage_errorsLackValue env s _ _ _ _ _ h hec) not_false
  | registerPfsStorage h => exact iff_of_true (registerPfsStorage_value s _ _ _ h) trivial
  | deployAdhocStorage h => exact iff_of_true (deployAdhocStorage_value env s _ h) trivial
  | transferDatasets h =>
      exact hnone (transferDatasets_errorsLackValue env s _ _ _ _ _ h hec) not_false
  | queryTransfer h => exact hnone (queryTransfer_errorsLackValue env s _ _ _ h hec) not_false

/-! ## Errors reach the caller -/

/-- The stub returns the error code of the response, and so does the C function
    over it. -/
def ReachesCaller (f : Stub) (logger allocates : Bool) (wait : TransferId → Outcome ErrorCode)
    (resp : ResponseWithValue f.Value) : Prop :=
  f.call logger (some resp) = .ok (.error resp.errorCode) ∧
    ∀ code ∈ f.returnCode logger allocates wait (some resp), code = .ok resp.errorCode

/-- **An error reaches the caller exactly when nobody logs it or it carries a
    value**, and the outcome is the same with and without a logger exactly when
    it carries one. -/
theorem error_reachesCaller_iff (f : Stub) (allocates : Bool)
    (wait : TransferId → Outcome ErrorCode) (resp : ResponseWithValue f.Value)
    (hec : resp.errorCode ≠ .success) :
    (∀ logger, ReachesCaller f logger allocates wait resp ↔
        logger = false ∨ resp.value.isSome = true) ∧
      (f.call true (some resp) = f.call false (some resp) ↔ resp.value.isSome = true) := by
  have hcall := f.call_error hec
  refine ⟨fun logger => ⟨?_, ?_⟩, ?_⟩
  · rintro ⟨hreturns, -⟩
    rw [hcall] at hreturns
    cases logger with
    | false => exact .inl rfl
    | true =>
        cases hvalue : resp.value with
        | none =>
            rw [hvalue] at hreturns
            cases hreturns
        | some v => exact .inr rfl
  · intro hholds
    have hquiet : (logger && resp.value.isNone) = false := by
      rcases hholds with rfl | hvalue
      · rfl
      · rw [Option.isNone_eq_false_iff.mpr hvalue, Bool.and_false]
    have hreturns : f.call logger (some resp) = .ok (.error resp.errorCode) := by
      rw [hcall, hquiet]
      rfl
    exact ⟨hreturns, f.returnCode_of_call hreturns⟩
  · rw [hcall, hcall]
    cases hvalue : resp.value with
    | none =>
        refine ⟨?_, ?_⟩
        · intro heq
          cases heq
        · intro hsome
          cases hsome
    | some v => exact ⟨fun _ => rfl, fun _ => rfl⟩

/-- In a process with a logger, the errors that the server sends reach the callers
    of the two stubs whose errors carry a value, and no others. -/
theorem RespondedBy.reaches_iff {H : Type} {env : Env H} {s : Server H} {f : Stub}
    {resp : ResponseWithValue f.Value} (h : RespondedBy env s f resp)
    (hec : resp.errorCode ≠ .success) :
    f.call true (some resp) = .ok (.error resp.errorCode) ↔ f.ErrorsCarryValue := by
  rw [f.call_error hec, ← h.error_value hec]
  cases resp.value with
  | none =>
      refine ⟨?_, ?_⟩
      · intro heq
        cases heq
      · intro hsome
        cases hsome
  | some v => exact iff_of_true rfl rfl

/-- A refused deployment, which carries an empty path. -/
theorem error_reachesCaller_deploy :
    ReachesCaller .deployAdhocStorage true true (fun _ => .ok .success)
      ⟨0, .noSuchEntity, some ""⟩ :=
  ((error_reachesCaller_iff .deployAdhocStorage true (fun _ => .ok .success)
    ⟨0, .noSuchEntity, some ""⟩ (by decide)).1 true).mpr (.inr rfl)

/-- A query for an unknown job ends a process with a logger. -/
theorem not_reachesCaller_query :
    ¬ ReachesCaller .query true true (fun _ => .ok .success) ⟨0, .noSuchEntity, none⟩ := by
  rintro ⟨hreturns, -⟩
  cases hreturns

end Scord.Plugin
