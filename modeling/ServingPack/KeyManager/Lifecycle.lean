import ServingPack.KeyManager.Calls
import ServingPack.KeyManager.Store
import ServingPack.KeyManager.Listing
import ServingPack.Operator.Controller.Runs

open golang apiserver concurrency kube

namespace secrets.lifecycle

/-- What is done to a model's Secret and ConfigMap: a call of the key manager, or
what a reconcile of the operator does to the one or the other. -/
inductive Task where
  | call (operation : Operation)
  | reconcileSecret (labels : GoMap GoString)
  | reconcileConfigMap (labels : GoMap GoString)

/-- A helper of the operator, among the key manager's calls. -/
def reconcileStep (x : controller.Call Unit) : Program Request Answer Outcome :=
  (x.run.embed Request.api (fun _ a => a)).bind (fun r => .pure (r.map (fun _ => none)))

def Task.program (m : Manager) (modelName : GoString) : Task → Program Request Answer Outcome
  | .call operation => operation.program m modelName
  | .reconcileSecret labels =>
    reconcileStep (controller.createOrUpdateLabels .secret
      (reconcilers.buildAPIKeySecret modelName labels))
  | .reconcileConfigMap labels =>
    reconcileStep (controller.createOrUpdateLabels .configMap
      (reconcilers.buildAPIKeyMetadataConfigMap modelName labels))

/-- The kinds a task reads from a cache. -/
def Task.cached : Task → Kind → Bool
  | .call _, _ => false
  | _, kind => controller.cached kind

structure State where
  history : History Body
  clock : Nat := 0
  drawn : List (List UInt8) := []
  tasks : List Task := []
  /-- When each task began. -/
  begins : List Nat := []
  /-- What `CreateKey` has returned, and to whom. -/
  created : List (CreateKeyResult × Creator) := []
  /-- The client IDs that `RevokeKey` has returned for. -/
  revoked : List GoString := []
  secretWrites : List (Write GoString) := []
  metadataWrites : List (Write Entry) := []

def State.cluster (s : State) : Cluster := s.history.current

/-- The live credentials of the model. -/
def State.keys (s : State) (modelName : GoString) : GoMap GoString :=
  secretData s.cluster (secretName modelName)

/-- The model's metadata. -/
def State.entries (s : State) (modelName : GoString) : GoMap Entry :=
  metadata s.cluster (configMapName modelName)

def addWrite {V : Type} [DecidableEq V] (i : Nat) (name : GoString) (before after : GoMap V)
    (writes : List (Write V)) :
    List (Write V) :=
  if before = after then writes else ⟨i, name, before, after⟩ :: writes

/-- A request of the task `i` was answered: what it changed is on record. -/
def State.answered (s : State) (modelName : GoString) (i : Nat) (history : History Body) : State :=
  { s with
    history := history
    secretWrites := addWrite i (secretName modelName) (s.keys modelName)
      (secretData history.current (secretName modelName)) s.secretWrites
    metadataWrites := addWrite i (configMapName modelName) (s.entries modelName)
      (metadata history.current (configMapName modelName)) s.metadataWrites }

/-- A task has ended with a result. -/
def State.ended (s : State) (i : Nat) (r : Outcome) : State :=
  match s.tasks[i]?, r with
  | some (.call (.create creator _)), .ok (some result) =>
      { s with created := (result, creator) :: s.created }
  | some (.call (.revoke id)), .ok _ => { s with revoked := id :: s.revoked }
  | _, _ => s

section Machine

/-- The answers to the task `i`. Any request can fail, and no draw ever repeats. -/
inductive Respond (modelName : GoString) (i : Nat) (s : State) :
    (q : Request) → Answer q → State → Prop where
  | api {task : Task} {request : apiserver.Request Body} {a : apiserver.Answer request}
    {history : History Body}
      (htask : s.tasks[i]? = some task)
        (hobserved : Observed (fun _ => False) task.cached s.history request a history) :
      Respond modelName i s (.api request) a (s.answered modelName i history)
  | rand {n : Nat} {accept : List UInt8 → Bool} (bytes : Drawn n accept)
    (hfresh : bytes.val ∉ s.drawn) :
      Respond modelName i s (.rand n accept) (.ok bytes) { s with drawn := bytes.val :: s.drawn }
  | randFailed {n : Nat} {accept : List UInt8 → Bool} (e : StatusError) :
    Respond modelName i s (.rand n accept) (.error e) s
  | now : Respond modelName i s .now s.clock s

/-- Any number of concurrent tasks on one model, which is not deleted. -/
def machine (m : Manager) (modelName : GoString) : Machine State Request Answer Outcome Nat where
  start i s p s' := i = s.tasks.length ∧ ∃ task : Task, p = task.program m modelName ∧
    s' = { s with tasks := s.tasks ++ [task], begins := s.begins ++ [s.clock] }
  exec := Respond modelName
  finish i s r s' := s' = s.ended i r
  env s s' := ∃ d, s' = { s with clock := s.clock + d }

/-- No keys yet, and no tasks. -/
structure Initial (modelName : GoString) (s : State) : Prop where
  coherent : s.history.Coherent
  unfinished : s.cluster.Unfinished
  keys : s.keys modelName = ∅
  entries : s.entries modelName = ∅
  tasks : s.tasks = []
  begins : s.begins = []
  created : s.created = []
  revoked : s.revoked = []
  secretWrites : s.secretWrites = []
  metadataWrites : s.metadataWrites = []

end Machine

/-- A `RevokeKey` of this client ID has begun. -/
def Begun (s : State) (id : GoString) : Prop := .call (.revoke id) ∈ s.tasks

/-- A `RevokeKey` of this client ID had begun by then. -/
def BegunBy (s : State) (id : GoString) (t : Nat) : Prop :=
  ∃ (i : Nat) (began : Nat), s.tasks[i]? = some (.call (.revoke id)) ∧ s.begins[i]? = some began ∧
    began ≤ t

/-- The entry names the one who minted the key. -/
structure Names (info : KeyInfo) (creator : Creator) : Prop where
  username : info.creator = creator.username
  subject : info.creatorSubject = creator.subject
  groups : info.creatorGroups = creator.groups

/-- A `RevokeKey` of this client ID has left this tombstone. -/
def Buried (s : State) (id : GoString) (info : KeyInfo) : Prop :=
  ∃ w ∈ s.metadataWrites, s.tasks[w.request]? = some (.call (.revoke id)) ∧
    w.after.lookup id = some (.keyInfo info)

/-- How far a task has come. -/
inductive Stage where
  | ready
  | readSecret (secret : Object SecretBody)
  | readBoth (secret : Object SecretBody) (cm : Object ConfigMapBody)
  | drew (secret : Object SecretBody) (cm : Object ConfigMapBody) (suffix : List UInt8)
  | drewKey (secret : Object SecretBody) (cm : Object ConfigMapBody) (suffix bytes : List UInt8)
  | stored (cm : Object ConfigMapBody) (suffix bytes : List UInt8)
  | recorded (suffix bytes : List UInt8)
  | erased (cm : Object ConfigMapBody)
  | timed (cm : Object ConfigMapBody) (now : Nat)
  | buried
  | foundSecret (existing : Object SecretBody)
  | foundConfigMap (existing : Object ConfigMapBody)

/-- The stages an attempt of a call begins in. -/
def Stage.Attempts : Stage → Prop
  | .ready => True
  | .readBoth _ _ => True
  | _ => False

/-- What a task asks in each stage. -/
inductive Allowed (m : Manager) (modelName : GoString) : Task → Stage → Request → Prop where
  | readSecret {operation : Operation} {stage : Stage} (hstage : stage.Attempts) :
      Allowed m modelName (.call operation) stage (.api (.get .secret (secretName modelName)))
  | readConfigMap {operation : Operation} {secret : Object SecretBody} :
    Allowed m modelName (.call operation)
      (.readSecret secret) (.api (.get .configMap (configMapName modelName)))
  | drawSuffix {creator : Creator} {description : GoString} {secret : Object SecretBody}
    {cm : Object ConfigMapBody}
      {accept : List UInt8 → Bool} (haccept : ∀ suffix, accept suffix = true →
        m.clientID modelName creator suffix ∉ secret.body.data ∧
          m.clientID modelName creator suffix ∉ cm.body.data) :
      Allowed m modelName (.call (.create creator description)) (.readBoth secret cm)
        (.rand 8 accept)
  | drawKey {creator : Creator} {description : GoString} {secret : Object SecretBody}
    {cm : Object ConfigMapBody}
      {suffix : List UInt8} {accept : List UInt8 → Bool} :
      Allowed m modelName (.call (.create creator description)) (.drew secret cm suffix)
        (.rand 24 accept)
  | store {creator : Creator} {description : GoString} {secret : Object SecretBody}
    {cm : Object ConfigMapBody}
      {suffix bytes : List UInt8} :
        Allowed m modelName (.call (.create creator description)) (.drewKey secret cm suffix bytes)
        (.api (.update .secret (secretName modelName) { secret with
          body.data := secret.body.data.insert (m.clientID modelName creator suffix)
            (apiKeyText bytes) }))
  | stampCreated {creator : Creator} {description : GoString} {cm : Object ConfigMapBody}
    {suffix bytes : List UInt8} :
      Allowed m modelName (.call (.create creator description)) (.stored cm suffix bytes) .now
  | record {creator : Creator} {description : GoString} {cm : Object ConfigMapBody}
    {suffix bytes : List UInt8}
      {info : KeyInfo} (hclientID : info.clientID = m.clientID modelName creator suffix)
        (hnames : Names info creator)
      (hlive : info.revokedAt = none) :
        Allowed m modelName (.call (.create creator description)) (.stored cm suffix bytes)
        (.api (.update .configMap (configMapName modelName) { cm with
          body.data := cm.body.data.insert (m.clientID modelName creator suffix) (.keyInfo info) }))
  | erase {id : GoString} {secret : Object SecretBody} {cm : Object ConfigMapBody}
    (hmem : id ∈ secret.body.data) :
      Allowed m modelName (.call (.revoke id)) (.readBoth secret cm)
        (.api (.update .secret (secretName modelName)
        { secret with body.data := secret.body.data.erase id }))
  | stampRevoked {id : GoString} {cm : Object ConfigMapBody} :
    Allowed m modelName (.call (.revoke id)) (.erased cm) .now
  | bury {id : GoString} {cm : Object ConfigMapBody} {now : Nat} :
    Allowed m modelName (.call (.revoke id)) (.timed cm now)
      (.api (.update .configMap (configMapName modelName) { cm with
        body.data := (Manager.dropExpired now cm.body.data).insert id
          (.keyInfo (Manager.tombstone id now
          (((cm.body.data.lookup id).bind Entry.unmarshal).getD Manager.zeroKeyInfo))) }))
  | findSecret {labels : GoMap GoString} : Allowed m modelName (.reconcileSecret labels) .ready
      (.api (.get .secret (secretName modelName)))
  | relabelSecret {labels : GoMap GoString} {existing : Object SecretBody} :
      Allowed m modelName (.reconcileSecret labels) (.foundSecret existing)
        (.api (.update .secret (secretName modelName)
        { existing with metadata.labels := labels }))
  | createSecret {labels : GoMap GoString} : Allowed m modelName (.reconcileSecret labels) .ready
      (.api (.create .secret (secretName modelName)
        (reconcilers.buildAPIKeySecret modelName labels).toObject))
  | findConfigMap {labels : GoMap GoString} :
    Allowed m modelName (.reconcileConfigMap labels) .ready
      (.api (.get .configMap (configMapName modelName)))
  | relabelConfigMap {labels : GoMap GoString} {existing : Object ConfigMapBody} :
      Allowed m modelName (.reconcileConfigMap labels) (.foundConfigMap existing)
        (.api (.update .configMap (configMapName modelName)
          { existing with metadata.labels := labels }))
  | createConfigMap {labels : GoMap GoString} :
    Allowed m modelName (.reconcileConfigMap labels) .ready
      (.api (.create .configMap (configMapName modelName)
        (reconcilers.buildAPIKeyMetadataConfigMap modelName labels).toObject))

def next : Task → Stage → (q : Request) → Answer q → Stage
  | .call _, .ready, .api (.get .secret _), .ok secret => .readSecret secret
  | .call _, .readBoth _ _, .api (.get .secret _), .ok secret => .readSecret secret
  | .call _, .readSecret secret, .api (.get .configMap _), .ok cm => .readBoth secret cm
  | _, .readBoth secret cm, .rand _ _, .ok suffix => .drew secret cm suffix.val
  | _, .drew secret cm suffix, .rand _ _, .ok bytes => .drewKey secret cm suffix bytes.val
  | _, .drewKey _ cm suffix bytes, .api (.update .secret _ _), .ok _ => .stored cm suffix bytes
  | _, .stored cm suffix bytes, .now, _ => .stored cm suffix bytes
  | _, .stored _ suffix bytes, .api (.update .configMap _ _), .ok _ => .recorded suffix bytes
  | _, .readBoth _ cm, .api (.update .secret _ _), .ok _ => .erased cm
  | _, .erased cm, .now, now => .timed cm now
  | _, .timed _ _, .api (.update .configMap _ _), .ok _ => .buried
  | .reconcileSecret _, .ready, .api (.get .secret _), .ok existing => .foundSecret existing
  | .reconcileConfigMap _, .ready, .api (.get .configMap _), .ok existing =>
      .foundConfigMap existing
  | _, _, _, _ => .ready

abbrev Phase := Option (Task × Stage)

def protocol (m : Manager) (modelName : GoString) : Protocol Request Answer Phase where
  allowed φ q := ∃ task stage, φ = some (task, stage) ∧ Allowed m modelName task stage q
  next φ q a := φ.map (fun p => (p.1, next p.1 p.2 q a))

section Follows

variable {m : Manager} {modelName : GoString}

/-- A call that can be attempted. -/
def Attempting (operation : Operation) (φ : Phase) : Prop :=
  ∃ stage : Stage, φ = some (.call operation, stage) ∧ stage.Attempts

/-- A key was minted, and both writes made. -/
def Returned (m : Manager) (modelName : GoString) (creator : Creator) (description : GoString)
    (result : CreateKeyResult) (φ : Phase) : Prop :=
  ∃ suffix bytes, φ = some (.call (.create creator description), .recorded suffix bytes) ∧
    result.clientID = m.clientID modelName creator suffix ∧ result.apiKey = apiKeyText bytes

/-- How a task ends: a call that succeeds has made both its writes. -/
def Ends (m : Manager) (modelName : GoString) (r : Outcome) (φ : Phase) : Prop :=
  ∃ task stage, φ = some (task, stage) ∧
    (∀ creator description result, task = .call (.create creator description) →
      r = .ok (some result) →
      Returned m modelName creator description result φ) ∧
    ∀ id result, task = .call (.revoke id) → r = .ok result → stage = .buried

private theorem follows_createKeyOnce (creator : Creator) (description : GoString) {φ : Phase}
    (hφ : Attempting (.create creator description) φ) :
    (protocol m modelName).Follows φ (m.createKeyOnce modelName creator description).run
      (fun r φ' => (∃ result, r = .ok result ∧ Returned m modelName creator description result φ') ∨
        (∃ e, r = .error e) ∧ Attempting (.create creator description) φ') := by
  obtain ⟨stage, rfl, hstage⟩ := hφ
  have hread (secret : Object SecretBody) : next (.call (.create creator description)) stage
      (.api (.get .secret (secretName modelName))) (.ok secret) = .readSecret secret := by
    cases stage <;> first | rfl | exact hstage.elim
  have hfailed (e : StatusError) : next (.call (.create creator description)) stage
      (.api (.get .secret (secretName modelName))) (.error e) = .ready := by
    cases stage <;> rfl
  refine ⟨⟨_, stage, rfl, .readSecret hstage⟩, ?_⟩
  rintro (e | secret)
  · simp only [protocol, Option.map_some, hfailed]
    exact .inr ⟨⟨_, rfl⟩, .ready, rfl, trivial⟩
  simp only [protocol, Option.map_some, hread]
  refine ⟨⟨_, _, rfl, .readConfigMap⟩, ?_⟩
  rintro (e | cm)
  · exact .inr ⟨⟨_, rfl⟩, .ready, rfl, trivial⟩
  refine ⟨⟨_, _, rfl, .drawSuffix (fun suffix hfree => ?_)⟩, ?_⟩
  · rwa [Bool.and_eq_true, decide_eq_true_eq, decide_eq_true_eq] at hfree
  rintro (e | suffix)
  · exact .inr ⟨⟨_, rfl⟩, .ready, rfl, trivial⟩
  refine ⟨⟨_, _, rfl, .drawKey⟩, ?_⟩
  rintro (e | bytes)
  · exact .inr ⟨⟨_, rfl⟩, .ready, rfl, trivial⟩
  refine ⟨⟨_, _, rfl, .store⟩, ?_⟩
  rintro (e | stored)
  · exact .inr ⟨⟨_, rfl⟩, .ready, rfl, trivial⟩
  refine ⟨⟨_, _, rfl, .stampCreated⟩,
    fun createdAt => ⟨⟨_, _, rfl, .record rfl ⟨rfl, rfl, rfl⟩ rfl⟩, ?_⟩⟩
  rintro (e | stored')
  · exact .inr ⟨⟨_, rfl⟩, .ready, rfl, trivial⟩
  exact .inl ⟨_, rfl, suffix.val, bytes.val, rfl, rfl, rfl⟩

private theorem follows_revokeKeyOnce (id : GoString) {φ : Phase} (hφ : Attempting (.revoke id) φ) :
    (protocol m modelName).Follows φ (Manager.revokeKeyOnce modelName id).run
      (fun r φ' => (∃ u, r = .ok u ∧ φ' = some (.call (.revoke id), .buried)) ∨
        (∃ e, r = .error e) ∧ Attempting (.revoke id) φ') := by
  obtain ⟨stage, rfl, hstage⟩ := hφ
  have hread (secret : Object SecretBody) : next (.call (.revoke id)) stage
      (.api (.get .secret (secretName modelName))) (.ok secret) = .readSecret secret := by
    cases stage <;> first | rfl | exact hstage.elim
  have hfailed (e : StatusError) : next (.call (.revoke id)) stage
      (.api (.get .secret (secretName modelName))) (.error e) = .ready := by
    cases stage <;> rfl
  refine ⟨⟨_, stage, rfl, .readSecret hstage⟩, ?_⟩
  rintro (e | secret)
  · simp only [protocol, Option.map_some, hfailed]
    exact .inr ⟨⟨_, rfl⟩, .ready, rfl, trivial⟩
  simp only [protocol, Option.map_some, hread]
  refine ⟨⟨_, _, rfl, .readConfigMap⟩, ?_⟩
  rintro (e | cm)
  · exact .inr ⟨⟨_, rfl⟩, .ready, rfl, trivial⟩
  change (protocol m modelName).Follows (some (.call (.revoke id), .readBoth secret cm))
    (if id ∈ secret.body.data then Manager.removeKey modelName id secret cm
      else throw _ : Call Unit).run _
  split_ifs with hmem
  · refine ⟨⟨_, _, rfl, .erase hmem⟩, ?_⟩
    rintro (e | stored)
    · exact .inr ⟨⟨_, rfl⟩, .ready, rfl, trivial⟩
    refine ⟨⟨_, _, rfl, .stampRevoked⟩, fun now => ⟨⟨_, _, rfl, .bury⟩, ?_⟩⟩
    rintro (e | stored')
    · exact .inr ⟨⟨_, rfl⟩, .ready, rfl, trivial⟩
    exact .inl ⟨_, rfl, rfl⟩
  · exact .inr ⟨⟨_, rfl⟩, _, rfl, trivial⟩

private theorem follows_reconcileSecret (labels : GoMap GoString) : (protocol m modelName).Follows
    (some (.reconcileSecret labels, .ready)) ((Task.reconcileSecret labels).program m modelName)
    (Ends m modelName) := by
  have hend (r : Outcome)
      (stage : Stage) : Ends m modelName r (some (.reconcileSecret labels, stage)) :=
    ⟨_, _, rfl, nofun, nofun⟩
  refine ⟨⟨_, _, rfl, .findSecret⟩, ?_⟩
  rintro (e | existing)
  · change (protocol m modelName).Follows _
      (reconcileStep (if e.reason = .notFound then _ else throw e)) _
    split_ifs
    · exact ⟨⟨_, _, rfl, .createSecret⟩, fun a => by cases a <;> exact hend _ _⟩
    · exact hend _ _
  · exact ⟨⟨_, _, rfl, .relabelSecret⟩, fun a => by cases a <;> exact hend _ _⟩

private theorem follows_reconcileConfigMap (labels : GoMap GoString) :
    (protocol m modelName).Follows
    (some (.reconcileConfigMap labels, .ready))
    ((Task.reconcileConfigMap labels).program m modelName)
    (Ends m modelName) := by
  have hend (r : Outcome)
      (stage : Stage) : Ends m modelName r (some (.reconcileConfigMap labels, stage)) :=
    ⟨_, _, rfl, nofun, nofun⟩
  refine ⟨⟨_, _, rfl, .findConfigMap⟩, ?_⟩
  rintro (e | existing)
  · change (protocol m modelName).Follows _
      (reconcileStep (if e.reason = .notFound then _ else throw e)) _
    split_ifs
    · exact ⟨⟨_, _, rfl, .createConfigMap⟩, fun a => by cases a <;> exact hend _ _⟩
    · exact hend _ _
  · exact ⟨⟨_, _, rfl, .relabelConfigMap⟩, fun a => by cases a <;> exact hend _ _⟩

/-- Every task begins ready, and ends as it should. -/
theorem follows_task (task : Task) :
    (protocol m modelName).Follows (some (task, .ready)) (task.program m modelName)
    (Ends m modelName) := by
  match task with
  | .reconcileSecret labels => exact follows_reconcileSecret labels
  | .reconcileConfigMap labels => exact follows_reconcileConfigMap labels
  | .call (.create creator description) =>
    have hfailed (e : StatusError) (φ : Phase) (hφ : Attempting (.create creator description) φ) :
        Ends m modelName (.error e) φ := by
      obtain ⟨stage, hstage, _⟩ := hφ
      exact ⟨_, stage, hstage, nofun, nofun⟩
    refine Protocol.Follows.run_bind
      (fun r φ => (∃ result, r = .ok result ∧ Returned m modelName creator description result φ) ∨
        (∃ e, r = .error e) ∧ Attempting (.create creator description) φ) ?_ ?_ ?_
    · unfold Manager.createKey
      split_ifs
      · exact .inr ⟨⟨_, rfl⟩, .ready, rfl, trivial⟩
      · exact follows_retry_until (I := Attempting (.create creator description)) _
          (fun φ hφ => follows_createKeyOnce creator description hφ) _ ⟨.ready, rfl, trivial⟩
    · rintro result φ (⟨result', hresult, hreturned⟩ | ⟨⟨e, he⟩, _⟩)
      · obtain rfl := Except.ok.inj hresult
        have hphase := hreturned
        obtain ⟨suffix, bytes, hφ, _⟩ := hphase
        refine ⟨_, _, hφ, fun creator' description' other htask hother => ?_, nofun⟩
        obtain ⟨rfl, rfl⟩ := Operation.create.inj (Task.call.inj htask)
        obtain rfl := Option.some.inj (Except.ok.inj hother)
        exact hreturned
      · cases he
    · rintro e φ (⟨result, hresult, _⟩ | ⟨_, hφ⟩)
      · cases hresult
      · exact hfailed e φ hφ
  | .call (.revoke id) =>
    refine Protocol.Follows.run_bind
      (fun r φ => (∃ u, r = .ok u ∧ φ = some (.call (.revoke id), .buried)) ∨
        (∃ e, r = .error e) ∧ Attempting (.revoke id) φ) ?_ ?_ ?_
    · exact follows_retry_until (I := Attempting (.revoke id))
        (fun _ φ => φ = some (.call (.revoke id), .buried))
        (fun φ hφ => follows_revokeKeyOnce id hφ) _ ⟨.ready, rfl, trivial⟩
    · rintro u φ (⟨_, _, rfl⟩ | ⟨⟨e, he⟩, _⟩)
      · exact ⟨_, _, rfl, nofun, fun _ _ _ _ => rfl⟩
      · cases he
    · rintro e φ (⟨u, hu, _⟩ | ⟨_, stage, rfl, _⟩)
      · cases hu
      · exact ⟨_, stage, rfl, nofun, nofun⟩

end Follows

end secrets.lifecycle
