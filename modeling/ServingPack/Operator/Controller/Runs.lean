import ServingPack.Lib.ApiServer.Cache
import ServingPack.Lib.Loop
import ServingPack.Operator.Controller.Conditions

open golang apiserver concurrency kube

namespace controller

/-- The kinds a controller reads from its cache: those it has Go types for. The
others are read from the server. -/
def cached : Kind → Bool
  | .namespace | .secret | .configMap | .llmModel | .passthroughModel | .deployment | .pod | .persistentVolumeClaim
  | .networkPolicy | .serviceAccount | .service | .role | .roleBinding => true
  | .securityPolicy | .aiGatewayRoute | .httpRoute | .backend | .backendTLSPolicy | .aiServiceBackend
  | .backendSecurityPolicy | .inferencePool | .podMonitor | .referenceGrant => false

/-- The cluster, and what the reconciles have created in it. -/
structure World where
  history : History Body
  created : List (Kind × GoString) := []

def World.cluster (w : World) : Cluster := w.history.current

abbrev Outcome := Except StatusError Result

abbrev Run := LoopState World (Request Body) Answer

/-- The reconciles of one object, one after the other. Any of their requests can
fail, and anything that `foreign` allows happens in between. -/
def machine (absent : Kind → Prop) (foreign : Cluster → Request Body → Prop)
    (reconcile : Call Result) :
    Machine Run (Request Body) Answer Outcome Unit :=
  loop reconcile.run
    (fun w q a w' => Observed absent cached w.history q a w'.history ∧
      w'.created = w.cluster.appeared w'.cluster q ++ w.created)
    (fun w w' => w'.created = w.created ∧ ∃ (q : Request Body) (a : Answer q) (s : Cluster),
      foreign w.cluster q ∧ Exec absent w.cluster q a s ∧ w'.history = w.history.advance s)

section Steps

variable {absent : Kind → Prop} {foreign : Cluster → Request Body → Prop} {reconcile : Call Result}
  {s s' : Run} {kind : Kind} {name : GoString}

/-- A reconcile that returns is run again. -/
theorem machine_loops : Loops (machine absent foreign reconcile) reconcile.run := loop_loops

/-- What a request is answered fits the cluster's history, cached reads included. -/
theorem observed_of_exec {q : Request Body} {a : Answer q}
    (h : (machine absent foreign reconcile).exec () s q a s') :
    Observed absent cached s.state.history q a s'.state.history := h.1.1

/-- The request behind a step of the environment. -/
theorem exec_of_env (h : (machine absent foreign reconcile).env s s') :
    ∃ (q : Request Body) (a : Answer q),
    foreign s.state.cluster q ∧ Exec absent s.state.cluster q a s'.state.cluster ∧
    s'.log = s.log := by
  obtain ⟨⟨_, q, a, t, hforeign, hexec, hhistory⟩, hlog⟩ := h
  have hcluster : s'.state.cluster = t := congrArg History.current hhistory
  exact ⟨q, a, hforeign, hcluster ▸ hexec, hlog⟩

end Steps

section Scripts

/-- How a step of a scripted run is taken. -/
inductive Choice where
  /-- The server answers. -/
  | reply
  /-- The request fails without effect. -/
  | fail (message : GoString)
  /-- Someone else's request. -/
  | other (q : Request Body)

/-- The run once a request was answered. -/
def answered (s : Run) (q : Request Body) (a : Answer q) (cluster : Cluster) : Run where
  state := ⟨s.state.history.advance cluster, s.state.cluster.appeared cluster q ++ s.state.created⟩
  log := ⟨q, a⟩ :: s.log

/-- Scripted runs of the reconciles; `permits` says which requests of others are made. -/
def runner (permits : Cluster → Request Body → Bool) (reconcile : Call Result) :
    Machine.Runner Run (Request Body) Answer Outcome Unit Choice where
  start _ _ s := some (reconcile.run, s)
  answer
    | .reply, _, s, q =>
      some ((s.state.cluster.handle q).1,
        answered s q (s.state.cluster.handle q).1 (s.state.cluster.handle q).2)
    | .fail message, _, s, q =>
        some (.error ⟨.other, message⟩, answered s q (.error ⟨.other, message⟩) s.state.cluster)
    | .other _, _, _, _ => none
  finish _ s _ := some { s with log := [] }
  env
    | .other q, s =>
      if permits s.state.cluster q then
        some { s with state.history := s.state.history.advance (s.state.cluster.handle q).2 }
      else none
    | _, _ => none

/-- A schedule that is run step by step is a run of the controller. -/
theorem runner_sound {absent : Kind → Prop} {foreign : Cluster → Request Body → Prop}
    {permits : Cluster → Request Body → Bool} (reconcile : Call Result)
    (hpermits : ∀ s q, permits s q = true → foreign s q) :
    (runner permits reconcile).Sound (machine absent foreign reconcile) where
  start o i s p s' h := by
    obtain ⟨rfl, rfl⟩ := Prod.mk.inj (Option.some.inj h)
    exact ⟨rfl, rfl⟩
  answer o i s q a s' h := by
    cases o with
    | reply =>
      obtain ⟨rfl, rfl⟩ := Prod.mk.inj (Option.some.inj h)
      exact ⟨⟨.direct (.reply q), rfl⟩, rfl⟩
    | fail message =>
      obtain ⟨rfl, rfl⟩ := Prod.mk.inj (Option.some.inj h)
      exact ⟨⟨.direct (.fail (.inl rfl)), rfl⟩, rfl⟩
    | other q' => cases h
  finish i s r s' h := (Option.some.inj h).symm
  env o s s' h := by
    cases o with
    | reply => cases h
    | fail message => cases h
    | other q =>
      simp only [runner] at h
      split_ifs at h with hpermit
      obtain rfl := Option.some.inj h
      exact ⟨⟨rfl, q, _, _, hpermits _ q hpermit, .reply q, rfl⟩, rfl⟩

/-- The server once some requests were answered. -/
def clusterAfter (requests : List (Request Body)) : Cluster :=
  requests.foldl (fun s q => (s.handle q).2) ApiServer.empty

/-- Reconciles begin in a cluster. -/
def runIn (cluster : Cluster) : Run := ⟨⟨⟨cluster, []⟩, []⟩, []⟩

end Scripts

end controller
