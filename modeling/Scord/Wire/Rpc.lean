/-
  Scord.Wire.Rpc

  An RPC from the client to the server and back: its name and its arguments are
  written to an archive (`endpoint::call`), the handler that is defined under the name
  reads them (`provider::define`), and its response is written and read in turn.

  Client and server agree on the names, on the types of the arguments and their order,
  and on the types of the responses.  What gets lost are the slurm ids of the jobs in
  QoS limits, and no response depends on those (`rpc_transparent`).
-/
import Scord.Server.Ids
import Scord.Wire.RoundTrip

namespace Scord.Wire

open Archive Archive.Serializer

/-! ## Values but for the slurm ids of jobs -/

/-- The value without the slurm ids of its jobs. -/
def Ty.forget (t : Ty) (x : t.Value) : t.Value := t.withSlurmId 0 x

section Memory

variable (fresh : Nat → SlurmJobId)

theorem relates_job (j : Job) : (job fresh).Relates (fun x y => y.id = x.id) j := by
  apply relates_uniquePtr
  show LoadsSome (jobImpl fresh).load (u64.save j.id) _
  rw [← List.append_nil (u64.save j.id)]
  refine LoadsSome.bind ((lossless_u64 j.id).loadsSome (P := fun id => id = j.id) rfl) ?_
  rintro id rfl rest
  exact ⟨{ id := j.id, slurmId := fresh rest.length }, rfl, rfl⟩

/-- Whatever the memory holds, an entity comes back but for its slurm id. -/
theorem relates_qosEntity (e : QosEntity) :
    (qosEntity fresh).Relates (fun x y => withSlurmId 0 y = withSlurmId 0 x) e := by
  have hdata : LoadsSome (qosData fresh).load ((qosData fresh).save e)
      fun y => withSlurmId 0 y = withSlurmId 0 e := by
    cases e with
    | dataset d => exact (Loads.cons ((lossless_dataset d).map _)).loadsSome rfl
    | node n => exact (Loads.cons ((lossless_node n).map _)).loadsSome rfl
    | job j =>
        refine LoadsSome.cons ((relates_job fresh j).map fun j' hid => ?_)
        show QosEntity.job { j' with slurmId := 0 } = .job { j with slurmId := 0 }
        rw [show j'.id = j.id from hid]
    | transfer id => exact (Loads.cons ((lossless_transfer id).map _)).loadsSome rfl
  have hscope : ∀ y, withSlurmId 0 y = withSlurmId 0 e → scopeOf y = scopeOf e := by
    intro y hy
    have hkeeps : ∀ x, scopeOf (withSlurmId 0 x) = scopeOf x := by
      intro x
      cases x <;> rfl
    rw [← hkeeps y, hy, hkeeps]
  apply relates_uniquePtr
  refine LoadsSome.bind ((lossless_enumeration _ (scopeOf e)).loadsSome
    (P := fun scope => scope = scopeOf e) rfl) ?_
  rintro scope rfl
  show LoadsSome _ ((qosData fresh).save e) _
  rw [← List.append_nil ((qosData fresh).save e)]
  refine hdata.bind fun y hy => ?_
  rw [if_pos (hscope y hy)]
  exact (Loads.pure y).loadsSome hy

theorem map_eq_of_rel {α : Type} {f : α → α} {x y : Option α}
    (h : Option.Rel (fun x y => f y = f x) x y) : y.map f = x.map f := by
  cases h with
  | none => rfl
  | some heq => exact congrArg some heq

theorem map_eq_of_forall₂ {α : Type} {f : α → α} {l l' : List α}
    (h : List.Forall₂ (fun x y => f y = f x) l l') : l'.map f = l.map f := by
  induction h with
  | nil => rfl
  | cons heq _ ih => rw [List.map_cons, List.map_cons, heq, ih]

theorem relates_qosLimit (l : QosLimit) :
    (qosLimit fresh).Relates
      (fun x y => Ty.qosLimit.forget y = Ty.qosLimit.forget x) l := by
  apply relates_uniquePtr
  refine LoadsSome.bind ((lossless_enumeration _ l.subclass).loadsSome
    (P := fun x => x = l.subclass) rfl) ?_
  rintro _ rfl
  refine LoadsSome.bind ((lossless_u64 l.value).loadsSome (P := fun x => x = l.value) rfl) ?_
  rintro _ rfl
  refine (relates_optional fun e _ => relates_qosEntity fresh e).map fun entity hentity => ?_
  show QosLimit.mk (entity.map (withSlurmId 0)) l.subclass l.value
    = QosLimit.mk (l.entity.map (withSlurmId 0)) l.subclass l.value
  rw [map_eq_of_rel hentity]

/-- **What is loaded of a saved value**, whatever the memory holds: the value itself,
    but for the slurm ids of its jobs. -/
theorem relates_serializer (t : Ty) (x : t.Value) :
    (t.serializer fresh).Relates (fun x y => t.forget y = t.forget x) x := by
  have hlossless : ∀ {t : Ty}, (t.serializer fresh).Lossless → ∀ x : t.Value,
      (t.serializer fresh).Relates (fun x y => t.forget y = t.forget x) x :=
    fun h x => (h x).loadsSome rfl
  induction t with
  | u64 => exact hlossless (t := .u64) lossless_u64 x
  | text => exact hlossless (t := .text) lossless_text x
  | adhocStorageType => exact hlossless (t := .adhocStorageType) lossless_adhocStorageType x
  | pfsStorageType => exact hlossless (t := .pfsStorageType) lossless_pfsStorageType x
  | transferMapping => exact hlossless (t := .transferMapping) lossless_transferMapping x
  | node => exact hlossless (t := .node) lossless_node x
  | dataset => exact hlossless (t := .dataset) lossless_dataset x
  | datasetRoute => exact hlossless (t := .datasetRoute) lossless_datasetRoute x
  | adhocCtx => exact hlossless (t := .adhocCtx) lossless_adhocCtx x
  | adhocResources => exact hlossless (t := .adhocResources) lossless_adhocResources x
  | adhocStorage => exact hlossless (t := .adhocStorage) lossless_adhocStorage x
  | pfsCtx => exact hlossless (t := .pfsCtx) lossless_pfsCtx x
  | pfsStorage => exact hlossless (t := .pfsStorage) lossless_pfsStorage x
  | jobResources => exact hlossless (t := .jobResources) lossless_jobResources x
  | jobRequirements => exact hlossless (t := .jobRequirements) lossless_jobRequirements x
  | jobInfo => exact hlossless (t := .jobInfo) lossless_jobInfo x
  | transfer => exact hlossless (t := .transfer) lossless_transfer x
  | transferState => exact hlossless (t := .transferState) lossless_transferState x
  | qosEntity => exact relates_qosEntity fresh x
  | qosLimit => exact relates_qosLimit fresh x
  | genericResponse => exact hlossless (t := .genericResponse) lossless_genericResponse x
  | responseWithValue t ih =>
      refine LoadsSome.bind ((lossless_genericResponse ⟨x.opId, x.errorCode⟩).loadsSome
        (P := fun base => base = ⟨x.opId, x.errorCode⟩) rfl) ?_
      rintro _ rfl
      refine (relates_optional fun v _ => ih v).map fun value hvalue => ?_
      show ResponseWithValue.mk x.opId x.errorCode (value.map (t.withSlurmId 0))
        = ResponseWithValue.mk x.opId x.errorCode (x.value.map (t.withSlurmId 0))
      exact congrArg _ (map_eq_of_rel hvalue)
  | vector t ih =>
      exact fun rest => (relates_vector fun y _ => ih y) rest |>.imp fun l' hl' =>
        ⟨hl'.1, map_eq_of_forall₂ hl'.2⟩
  | optional t ih =>
      exact fun rest => (relates_optional fun y _ => ih y) rest |>.imp fun o ho =>
        ⟨ho.1, map_eq_of_rel ho.2⟩
  | pair t u iht ihu =>
      exact fun rest => (relates_pair (iht x.1) (ihu x.2)) rest |>.imp fun y hy =>
        ⟨hy.1, Prod.ext hy.2.1 hy.2.2⟩

section Save

variable (fresh' : Nat → SlurmJobId)

theorem save_qosEntity (e : QosEntity) : (qosEntity fresh).save e = (qosEntity fresh').save e := by
  have hdata : (qosData fresh).save e = (qosData fresh').save e := by
    cases e <;> rfl
  show bool.save true ++ (qosScope.save (scopeOf e) ++ (qosData fresh).save e) = _
  rw [hdata]
  rfl

theorem save_qosLimit (l : QosLimit) : (qosLimit fresh).save l = (qosLimit fresh').save l := by
  have hentity : (optional (qosEntity fresh)).save l.entity
      = (optional (qosEntity fresh')).save l.entity :=
    save_optional fun e _ => save_qosEntity fresh fresh' e
  show bool.save true ++ (qosSubclass.save l.subclass ++ (u64.save l.value ++
    (optional (qosEntity fresh)).save l.entity)) = _
  rw [hentity]
  rfl

/-- What is written does not depend on the memory. -/
theorem save_serializer (t : Ty) (x : t.Value) :
    (t.serializer fresh).save x = (t.serializer fresh').save x := by
  induction t with
  | qosEntity => exact save_qosEntity fresh fresh' x
  | qosLimit => exact save_qosLimit fresh fresh' x
  | responseWithValue t ih =>
      show genericResponse.save ⟨x.opId, x.errorCode⟩
          ++ (optional (t.serializer fresh)).save x.value
        = genericResponse.save ⟨x.opId, x.errorCode⟩
          ++ (optional (t.serializer fresh')).save x.value
      rw [save_optional fun v _ => ih v]
  | vector t ih => exact save_vector fun y _ => ih y
  | optional t ih => exact save_optional fun v _ => ih v
  | pair t u iht ihu =>
      show (t.serializer fresh).save x.1 ++ (u.serializer fresh).save x.2 = _
      rw [iht x.1, ihu x.2]
      rfl
  | _ => rfl

end Save

end Memory

/-! ## Arguments -/

/-- The arguments of an RPC. -/
abbrev Args : List Ty → Type
  | [] => Unit
  | t :: ts => t.Value × Args ts

namespace Args

/-- The arguments without the slurm ids of jobs. -/
def forget : (ts : List Ty) → Args ts → Args ts
  | [], _ => ()
  | t :: ts, (x, xs) => (t.forget x, forget ts xs)

def save (fresh : Nat → SlurmJobId) : (ts : List Ty) → Args ts → List Token
  | [], _ => []
  | t :: ts, (x, xs) => (t.serializer fresh).save x ++ save fresh ts xs

def load (fresh : Nat → SlurmJobId) : (ts : List Ty) → Loader (Args ts)
  | [] => return ()
  | t :: ts => do
      let x ← (t.serializer fresh).load
      let xs ← load fresh ts
      return (x, xs)

/-- Written by one, read by another. -/
theorem loadsSome (fresh fresh' : Nat → SlurmJobId) (ts : List Ty) (xs : Args ts) :
    LoadsSome (load fresh ts) (save fresh' ts xs) fun ys => forget ts ys = forget ts xs := by
  induction ts with
  | nil => exact (Loads.pure ()).loadsSome rfl
  | cons t ts ih =>
      obtain ⟨x, xs⟩ := xs
      show LoadsSome _ ((t.serializer fresh').save x ++ save fresh' ts xs) _
      rw [save_serializer fresh' fresh]
      refine (relates_serializer fresh t x).bind fun y hy => (ih xs).map fun ys hys => ?_
      exact Prod.ext hy hys

end Args

/-! ## The client -/

/-- What a call sends. -/
structure Packet where
  name : String
  args : List Token

/-- What the functions of `detail/impl.cpp` send, each under `"ADM_" + __FUNCTION__`. -/
def packet (fresh : Nat → SlurmJobId) : Request → Packet
  | .ping => ⟨"ADM_ping", Args.save fresh [] ()⟩
  | .query jobId => ⟨"ADM_query", Args.save fresh [.u64] (jobId, ())⟩
  | .registerJob res req slurmId =>
      ⟨"ADM_register_job",
        Args.save fresh [.jobResources, .jobRequirements, .u64] (res, req, slurmId, ())⟩
  | .updateJob jobId res =>
      ⟨"ADM_update_job", Args.save fresh [.u64, .jobResources] (jobId, res, ())⟩
  | .removeJob jobId => ⟨"ADM_remove_job", Args.save fresh [.u64] (jobId, ())⟩
  | .registerAdhocStorage name type ctx res =>
      ⟨"ADM_register_adhoc_storage",
        Args.save fresh [.text, .adhocStorageType, .adhocCtx, .adhocResources]
          (name, type, ctx, res, ())⟩
  | .updateAdhocStorage adhocId res =>
      ⟨"ADM_update_adhoc_storage", Args.save fresh [.u64, .adhocResources] (adhocId, res, ())⟩
  | .removeAdhocStorage adhocId =>
      ⟨"ADM_remove_adhoc_storage", Args.save fresh [.u64] (adhocId, ())⟩
  | .deployAdhocStorage adhocId =>
      ⟨"ADM_deploy_adhoc_storage", Args.save fresh [.u64] (adhocId, ())⟩
  | .terminateAdhocStorage adhocId =>
      ⟨"ADM_terminate_adhoc_storage", Args.save fresh [.u64] (adhocId, ())⟩
  | .registerPfsStorage name type ctx =>
      ⟨"ADM_register_pfs_storage",
        Args.save fresh [.text, .pfsStorageType, .pfsCtx] (name, type, ctx, ())⟩
  | .updatePfsStorage pfsId ctx =>
      ⟨"ADM_update_pfs_storage", Args.save fresh [.u64, .pfsCtx] (pfsId, ctx, ())⟩
  | .removePfsStorage pfsId =>
      ⟨"ADM_remove_pfs_storage", Args.save fresh [.u64] (pfsId, ())⟩
  | .transferDatasets jobId sources targets limits mapping =>
      ⟨"ADM_transfer_datasets",
        Args.save fresh
          [.u64, .vector .dataset, .vector .dataset, .vector .qosLimit, .transferMapping]
          (jobId, sources, targets, limits, mapping, ())⟩
  | .queryTransfer jobId txId =>
      ⟨"ADM_query_transfer", Args.save fresh [.u64, .u64] (jobId, txId, ())⟩

/-- As what these functions read the response. -/
def expects : Request → Ty
  | .query _ => .responseWithValue .jobInfo
  | .registerJob _ _ _ => .responseWithValue .u64
  | .registerAdhocStorage _ _ _ _ => .responseWithValue .u64
  | .deployAdhocStorage _ => .responseWithValue .text
  | .registerPfsStorage _ _ _ => .responseWithValue .u64
  | .transferDatasets _ _ _ _ _ => .responseWithValue .u64
  | .queryTransfer _ _ => .responseWithValue .transferState
  | _ => .genericResponse

/-! ## The server -/

/-- A handler by the types of its parameters. -/
structure Handler where
  params : List Ty
  request : Args params → Request

/-- `provider::define(EXPAND(..))`: the handlers under their names. -/
def handlerOf : String → Option Handler
  | "ADM_ping" => some ⟨[], fun _ => .ping⟩
  | "ADM_query" => some ⟨[.u64], fun (jobId, _) => .query jobId⟩
  | "ADM_register_job" =>
      some ⟨[.jobResources, .jobRequirements, .u64],
        fun (jobResources, jobRequirements, slurmId, _) =>
          .registerJob jobResources jobRequirements slurmId⟩
  | "ADM_update_job" =>
      some ⟨[.u64, .jobResources], fun (jobId, newResources, _) => .updateJob jobId newResources⟩
  | "ADM_remove_job" => some ⟨[.u64], fun (jobId, _) => .removeJob jobId⟩
  | "ADM_register_adhoc_storage" =>
      some ⟨[.text, .adhocStorageType, .adhocCtx, .adhocResources],
        fun (name, type, ctx, resources, _) => .registerAdhocStorage name type ctx resources⟩
  | "ADM_update_adhoc_storage" =>
      some ⟨[.u64, .adhocResources],
        fun (adhocId, newResources, _) => .updateAdhocStorage adhocId newResources⟩
  | "ADM_remove_adhoc_storage" => some ⟨[.u64], fun (adhocId, _) => .removeAdhocStorage adhocId⟩
  | "ADM_deploy_adhoc_storage" => some ⟨[.u64], fun (adhocId, _) => .deployAdhocStorage adhocId⟩
  | "ADM_terminate_adhoc_storage" =>
      some ⟨[.u64], fun (adhocId, _) => .terminateAdhocStorage adhocId⟩
  | "ADM_register_pfs_storage" =>
      some ⟨[.text, .pfsStorageType, .pfsCtx],
        fun (name, type, ctx, _) => .registerPfsStorage name type ctx⟩
  | "ADM_update_pfs_storage" =>
      some ⟨[.u64, .pfsCtx], fun (pfsId, newCtx, _) => .updatePfsStorage pfsId newCtx⟩
  | "ADM_remove_pfs_storage" => some ⟨[.u64], fun (pfsId, _) => .removePfsStorage pfsId⟩
  | "ADM_transfer_datasets" =>
      some ⟨[.u64, .vector .dataset, .vector .dataset, .vector .qosLimit, .transferMapping],
        fun (jobId, sources, targets, limits, mapping, _) =>
          .transferDatasets jobId sources targets limits mapping⟩
  | "ADM_query_transfer" =>
      some ⟨[.u64, .u64], fun (jobId, transferId, _) => .queryTransfer jobId transferId⟩
  | _ => none

/-- A response with its type. -/
abbrev Response := (t : Ty) × t.Value

/-- The request without the slurm ids of the jobs in its QoS limits. -/
def forgetRequest : Request → Request
  | .transferDatasets jobId sources targets limits mapping =>
      .transferDatasets jobId sources targets ((Ty.vector .qosLimit).forget limits) mapping
  | r => r

/-- Arguments without jobs are read as they were written. -/
theorem forgetRequest_eq {ts : List Ty} {request : Args ts → Request} {args args' : Args ts}
    (hself : ∀ a, Args.forget ts a = a) (h : Args.forget ts args' = Args.forget ts args) :
    forgetRequest (request args') = forgetRequest (request args) := by
  rw [← hself args', h, hself]

/-- **Client and server agree**: under the name of a request is its handler, and the
    arguments are the ones that its parameters want. -/
theorem handlerOf_packet (fresh : Nat → SlurmJobId) (r : Request) :
    ∃ h args, handlerOf (packet fresh r).name = some h ∧
      (packet fresh r).args = Args.save fresh h.params args ∧ h.request args = r ∧
      ∀ args', Args.forget h.params args' = Args.forget h.params args →
        forgetRequest (h.request args') = forgetRequest (h.request args) := by
  cases r with
  | ping => exact ⟨_, (), rfl, rfl, rfl, fun _ => forgetRequest_eq fun _ => rfl⟩
  | query jobId => exact ⟨_, (jobId, ()), rfl, rfl, rfl, fun _ => forgetRequest_eq fun _ => rfl⟩
  | registerJob res req slurmId =>
      exact ⟨_, (res, req, slurmId, ()), rfl, rfl, rfl, fun _ => forgetRequest_eq fun _ => rfl⟩
  | updateJob jobId res =>
      exact ⟨_, (jobId, res, ()), rfl, rfl, rfl, fun _ => forgetRequest_eq fun _ => rfl⟩
  | removeJob jobId =>
      exact ⟨_, (jobId, ()), rfl, rfl, rfl, fun _ => forgetRequest_eq fun _ => rfl⟩
  | registerAdhocStorage name type ctx res =>
      exact ⟨_, (name, type, ctx, res, ()), rfl, rfl, rfl,
        fun _ => forgetRequest_eq fun _ => rfl⟩
  | updateAdhocStorage adhocId res =>
      exact ⟨_, (adhocId, res, ()), rfl, rfl, rfl, fun _ => forgetRequest_eq fun _ => rfl⟩
  | removeAdhocStorage adhocId =>
      exact ⟨_, (adhocId, ()), rfl, rfl, rfl, fun _ => forgetRequest_eq fun _ => rfl⟩
  | deployAdhocStorage adhocId =>
      exact ⟨_, (adhocId, ()), rfl, rfl, rfl, fun _ => forgetRequest_eq fun _ => rfl⟩
  | terminateAdhocStorage adhocId =>
      exact ⟨_, (adhocId, ()), rfl, rfl, rfl, fun _ => forgetRequest_eq fun _ => rfl⟩
  | registerPfsStorage name type ctx =>
      exact ⟨_, (name, type, ctx, ()), rfl, rfl, rfl, fun _ => forgetRequest_eq fun _ => rfl⟩
  | updatePfsStorage pfsId ctx =>
      exact ⟨_, (pfsId, ctx, ()), rfl, rfl, rfl, fun _ => forgetRequest_eq fun _ => rfl⟩
  | removePfsStorage pfsId =>
      exact ⟨_, (pfsId, ()), rfl, rfl, rfl, fun _ => forgetRequest_eq fun _ => rfl⟩
  | transferDatasets jobId sources targets limits mapping =>
      refine ⟨_, (jobId, sources, targets, limits, mapping, ()), rfl, rfl, rfl, ?_⟩
      rintro ⟨jobId', sources', targets', limits', mapping', _⟩ hargs
      have hdatasets : ∀ l : List Dataset, (Ty.vector .dataset).forget l = l :=
        fun l => List.map_id' l
      obtain ⟨hjob, hargs⟩ := Prod.mk.inj hargs
      obtain ⟨hsources, hargs⟩ := Prod.mk.inj hargs
      obtain ⟨htargets, hargs⟩ := Prod.mk.inj hargs
      obtain ⟨hlimits, hargs⟩ := Prod.mk.inj hargs
      rw [hdatasets, hdatasets] at hsources htargets
      have hmapping : mapping' = mapping := (Prod.mk.inj hargs).1
      have hjob : jobId' = jobId := hjob
      show Request.transferDatasets jobId' sources' targets' ((Ty.vector .qosLimit).forget limits')
        mapping' = .transferDatasets jobId sources targets ((Ty.vector .qosLimit).forget limits)
        mapping
      rw [hjob, hsources, htargets, hlimits, hmapping]
  | queryTransfer jobId txId =>
      exact ⟨_, (jobId, txId, ()), rfl, rfl, rfl, fun _ => forgetRequest_eq fun _ => rfl⟩

/-- A value without jobs comes back as it was. -/
theorem load_saved (fresh fresh' : Nat → SlurmJobId) {t : Ty} {v : t.Value} (h : t.NoJob v) :
    (t.serializer fresh).load ((t.serializer fresh').save v) = some (v, []) := by
  rw [save_serializer fresh' fresh]
  exact (load_save_iff t v).mpr h fresh

/-- No response has a job in it. -/
theorem noJob_expects (r : Request) (v : (expects r).Value) : (expects r).NoJob v := by
  cases r with
  | query jobId => exact fun _ _ => trivial
  | registerJob res req slurmId => exact fun _ _ => trivial
  | registerAdhocStorage name type ctx res => exact fun _ _ => trivial
  | deployAdhocStorage adhocId => exact fun _ _ => trivial
  | registerPfsStorage name type ctx => exact fun _ _ => trivial
  | transferDatasets jobId sources targets limits mapping => exact fun _ _ => trivial
  | queryTransfer jobId txId => exact fun _ _ => trivial
  | _ => trivial

end Scord.Wire

namespace Scord

open Wire

/-- A handler's response, with its type. -/
def Handled.response {H : Type} (t : Ty) (h : Handled H t.Value) : Handled H Response where
  server := h.server
  outcome := h.outcome.map fun v => ⟨t, v⟩
  calls := h.calls
  writes := h.writes

namespace Server

variable {H : Type}

/-- The handlers, each with the type of its response. -/
def respond (s : Server H) (env : Env H) : Request → Handled H Response
  | .ping => s.ping.response .genericResponse
  | .query jobId => (s.query jobId).response (.responseWithValue .jobInfo)
  | .registerJob res req slurmId =>
      (s.registerJob env res req slurmId).response (.responseWithValue .u64)
  | .updateJob jobId res => (s.updateJob jobId res).response .genericResponse
  | .removeJob jobId => (s.removeJob jobId).response .genericResponse
  | .registerAdhocStorage name type ctx res =>
      (s.registerAdhocStorage env name type ctx res).response (.responseWithValue .u64)
  | .updateAdhocStorage adhocId res =>
      (s.updateAdhocStorage env adhocId res).response .genericResponse
  | .removeAdhocStorage adhocId => (s.removeAdhocStorage adhocId).response .genericResponse
  | .deployAdhocStorage adhocId =>
      (s.deployAdhocStorage env adhocId).response (.responseWithValue .text)
  | .terminateAdhocStorage adhocId =>
      (s.terminateAdhocStorage env adhocId).response .genericResponse
  | .registerPfsStorage name type ctx =>
      (s.registerPfsStorage name type ctx).response (.responseWithValue .u64)
  | .updatePfsStorage pfsId ctx => (s.updatePfsStorage pfsId ctx).response .genericResponse
  | .removePfsStorage pfsId => (s.removePfsStorage pfsId).response .genericResponse
  | .transferDatasets jobId sources targets limits _ =>
      (s.transferDatasets env jobId sources targets limits).response (.responseWithValue .u64)
  | .queryTransfer jobId txId =>
      (s.queryTransfer env jobId txId).response (.responseWithValue .transferState)

/-- The server serves a packet: the one afterwards, unless it has ended, and what it
    sends back, if anything. -/
def serve (fresh : Nat → SlurmJobId) (s : Server H) (env : Env H) (p : Packet) :
    Option (Server H) × Option (List Archive.Token) :=
  match handlerOf p.name with
  | none => (some s, none)
  | some h =>
      match Args.load fresh h.params p.args with
      | none => (some s, none)
      | some (args, _) =>
          let handled := s.respond env (h.request args)
          (handled.next,
            handled.outcome.toOption.map fun resp => (resp.1.serializer fresh).save resp.2)

/-- A request by way of the network, with what there is in the memory of the client
    and of the server. -/
def remote (client server : Nat → SlurmJobId) (s : Server H) (env : Env H) (r : Request) :
    Option (Server H) × Option Response :=
  let served := s.serve server env (packet client r)
  (served.1, served.2.bind fun tokens =>
    (((expects r).serializer client).load tokens).map fun v => ⟨expects r, v.1⟩)

theorem outcome_response {t : Ty} {h : Handled H t.Value} {resp : Response}
    (hok : (h.response t).outcome = .ok resp) : ∃ v, resp = ⟨t, v⟩ := by
  cases hout : h.outcome with
  | error fault =>
      have hmap : (h.response t).outcome = .error fault := by
        show h.outcome.map _ = _
        rw [hout]
        rfl
      rw [hmap] at hok
      cases hok
  | ok v =>
      refine ⟨v, ?_⟩
      have hmap : (h.response t).outcome = .ok ⟨t, v⟩ := by
        show h.outcome.map _ = _
        rw [hout]
        rfl
      rw [hmap] at hok
      exact (Except.ok.inj hok).symm

/-- The server responds with what the client expects. -/
theorem respond_expects {s : Server H} {env : Env H} {r : Request} {resp : Response}
    (h : (s.respond env r).outcome = .ok resp) : ∃ v, resp = ⟨expects r, v⟩ := by
  cases r <;> exact outcome_response h

theorem next_response (t : Ty) (h : Handled H t.Value) : (h.response t).next = h.next := by
  unfold Handled.next Handled.response
  cases h.outcome with
  | ok v => rfl
  | error fault => cases fault <;> rfl

theorem step_respond (s : Server H) (env : Env H) (r : Request) :
    s.step (env, r) = (s.respond env r).next := by
  cases r <;> simp only [respond, next_response] <;> rfl

theorem expects_forgetRequest (r : Request) : expects (forgetRequest r) = expects r := by
  cases r <;> rfl

/-- **A request by way of the network** is handled like one that differs from it in
    slurm ids of jobs in QoS limits at most. -/
theorem remote_eq (client server : Nat → SlurmJobId) (s : Server H) (env : Env H)
    (r : Request) : ∃ r', forgetRequest r' = forgetRequest r ∧
      s.remote client server env r
        = ((s.respond env r').next, (s.respond env r').outcome.toOption) := by
  obtain ⟨h, args, hname, hargs, hrequest, hforget⟩ := handlerOf_packet client r
  obtain ⟨args', hload, hargs'⟩ := Args.loadsSome server client h.params args []
  rw [List.append_nil, ← hargs] at hload
  have hr' := hforget args' hargs'
  rw [hrequest] at hr'
  refine ⟨h.request args', hr', ?_⟩
  have hexpects : expects (h.request args') = expects r := by
    rw [← expects_forgetRequest, hr', expects_forgetRequest]
  unfold remote serve
  simp only [hname, hload]
  cases hout : (s.respond env (h.request args')).outcome with
  | error fault => rfl
  | ok resp =>
      obtain ⟨v, rfl⟩ := respond_expects hout
      refine Prod.ext rfl ?_
      show (((expects r).serializer client).load
        (((expects (h.request args')).serializer server).save v)).map _ = some _
      rw [← hexpects, load_saved client server (noJob_expects _ v)]
      rfl

end Server

end Scord
