import ServingPack.KeyManager.SyncInvariant

open golang apiserver concurrency kube

namespace secrets

section Keeps

variable {m : Manager} {modelName : GoString} {s s' : Cluster} {φ : Nat → Phase}

/-- The API requests a call sends, by the phase it is in. -/
theorem allowed_api {ψ : Phase} {request : apiserver.Request Body}
    (h : allowed modelName ψ (.api request)) :
    (¬ψ.Pending ∧ request = .get .secret (secretName modelName)) ∨
    (∃ secret, ψ = .readSecret secret ∧ request = .get .configMap (configMapName modelName)) ∨
    (∃ secret cm object, ∃ c : Change, ψ = .readBoth secret cm ∧
      request = .update .secret (secretName modelName) object ∧
      object.metadata = secret.metadata ∧ c.Fits secret.body.data cm.body.data object.body.data) ∨
    ∃ cm before after object, ∃ c : Change, ψ = .wroteSecret cm before after ∧
      request = .update .configMap (configMapName modelName) object ∧
      object.metadata = cm.metadata ∧
      c.Fits before cm.body.data after ∧ c.Records cm.body.data object.body.data := by
  unfold allowed at h
  split at h
  · next heq => cases heq
  · next heq => cases heq
  · next name heq =>
    cases heq
    exact .inl ⟨h.1, by rw [h.2]⟩
  · next secret name heq =>
    cases heq
    exact .inr (.inl ⟨secret, rfl, by rw [h]⟩)
  · next secret cm name object heq =>
    cases heq
    obtain ⟨rfl, hmetadata, c, hfits⟩ := h
    exact .inr (.inr (.inl ⟨secret, cm, object, c, rfl, rfl, hmetadata, hfits⟩))
  · next cm before after name object heq =>
    cases heq
    obtain ⟨rfl, hmetadata, c, hfits, hrecords⟩ := h
    exact .inr (.inr (.inr ⟨cm, before, after, object, c, rfl, rfl, hmetadata, hfits, hrecords⟩))
  · exact h.elim

private theorem next_rand (ψ : Phase) {n : Nat} {accept : List UInt8 → Bool}
    (a : Answer (.rand n accept)) :
    next ψ (.rand n accept) a = ψ := by
  cases ψ <;> rfl

private theorem next_now (ψ : Phase) (seconds : Nat) : next ψ .now seconds = ψ := by
  cases ψ <;> rfl

private theorem Inv.readSecret (h : Inv modelName s φ) {i : Nat} (hi : ¬(φ i).Pending) :
    Inv modelName s (Function.update φ i (next (φ i) (.api (.get .secret (secretName modelName)))
      (s.handle (.get .secret (secretName modelName))).1)) := by
  simp only [ApiServer.handle]
  split
  · next secret hsecret =>
    have hnext : next (φ i) (.api (.get .secret (secretName modelName))) (.ok secret) =
        .readSecret secret := by
      cases φ i <;> rfl
    rw [hnext]
    exact h.move hi id (Past.of_lookup hsecret)
  · next hnone =>
    have hnext (e : StatusError) :
        next (φ i) (.api (.get .secret (secretName modelName))) (.error e) = .quiet := by
      cases φ i <;> rfl
    rw [hnext]
    exact h.move hi id trivial

private theorem Inv.readConfigMap (h : Inv modelName s φ) {i : Nat} {secret : Object SecretBody}
    (hi : φ i = .readSecret secret) :
    Inv modelName s (Function.update φ i
      (next (φ i) (.api (.get .configMap (configMapName modelName)))
      (s.handle (.get .configMap (configMapName modelName))).1)) := by
  have hcopies := h.copies i
  have hquiet : ¬(φ i).Pending := by
    rw [hi]
    exact id
  rw [hi] at hcopies
  simp only [ApiServer.handle, hi]
  split
  · next cm hcm => exact h.move hquiet id ⟨hcopies, Past.of_lookup hcm⟩
  · exact h.move hquiet id trivial

private theorem keeps :
    (protocol modelName).Keeps
    ((machine m modelName).restrict (fun _ => configMapCurrent) (fun _ _ => True))
    (Synced modelName) .quiet (fun _ ψ => ¬ψ.Pending) (Inv modelName) where
  init s hsynced := by
    refine ⟨fun _ => trivial,
      fun secret cm hsecret hcm => .inr ⟨?_, nofun, .inr (.inr ⟨fun _ => id, ?_⟩)⟩⟩
    · exact fun id hid => .inr ((hsynced secret cm hsecret hcm id).mp hid)
    · exact hsynced secret cm hsecret hcm
  start i s φ p s' hinv hidle hstart := by
    obtain ⟨rfl, operation, rfl⟩ := hstart
    exact Protocol.starts_idle hidle hinv (follows_program
      (fun creator description φ => follows_createKeyOnce creator description)
      (fun clientID φ => follows_revokeKeyOnce clientID) operation id)
  exec i s φ q a s' hinv hallowed hexec := by
    obtain ⟨hexec, hgood⟩ := hexec
    cases hexec with
    | rand bytes => simpa only [protocol, next_rand, Function.update_eq_self] using hinv
    | now seconds => simpa only [protocol, next_now, Function.update_eq_self] using hinv
    | api request =>
      rcases allowed_api hallowed
        with ⟨hi, rfl⟩ | ⟨secret, hi, rfl⟩ | ⟨secret, cm, object, c, hi, rfl, hmeta, hfits⟩ |
        ⟨cm, before, after, object, c, hi, rfl, hmeta, hfits, hrecords⟩
      · have hsame : (s.handle (.get .secret (secretName modelName))).2 = s :=
          s.handle_get .secret _
        rw [hsame]
        exact hinv.readSecret hi
      · have hsame : (s.handle (.get .configMap (configMapName modelName))).2 = s :=
          s.handle_get .configMap _
        rw [hsame]
        exact hinv.readConfigMap hi
      · rw [hi]
        exact hinv.writeSecret hi hmeta hfits
      · have hnext (a) : next (φ i) (.api (.update .configMap (configMapName modelName) object)) a =
            .quiet := by
          rw [hi]
          rfl
        simp only [protocol, hnext]
        refine hinv.writeConfigMap hi hmeta hfits hrecords (fun current hcurrent => ?_)
        simpa [configMapCurrent, hcurrent] using hgood
  finish i s φ r s' hinv hpost hfinish := by
    obtain rfl : s' = s := hfinish
    exact hinv.move hpost id trivial
  env s φ s' _ henv := henv.1.elim

/-- Between calls, the live credentials of a model are its listed keys, in every
run in which no ConfigMap update is made from an outdated version. -/
theorem keys_synced_of_configMapCurrent {c : Config Cluster Request Answer Outcome Nat}
    (hreach : ((machine m modelName).restrict (fun _ => configMapCurrent)
      (fun _ _ => True)).Reachable (Synced modelName) c)
    (hquiet : ∀ i, c.threads i = none) : Synced modelName c.state := by
  obtain ⟨φ, hinv, hthreads⟩ := keeps.reachable hreach
  have hidle (i : Nat) : φ i = .quiet := by
    have hi := hthreads i
    rwa [hquiet i] at hi
  intro secret cm hsecret hcm
  have hnone (i : Nat) : ¬(φ i).Pending := by
    rw [hidle i]
    exact id
  rcases hinv.consistent secret cm hsecret hcm with ⟨i, read, before, after, hi, _⟩ | htidy
  · rw [hidle i] at hi
    cases hi
  · rcases htidy.settled with ⟨i, _, _, hi, _⟩ | ⟨i, _, _, hi, _⟩ | ⟨_, hsynced⟩
    · exact absurd hi (hnone i)
    · rw [hidle i] at hi
      cases hi
    · exact hsynced

end Keeps

section Scripts

def runner (m : Manager) (modelName : GoString) :
    Machine.Runner Cluster Request Answer Outcome Nat (Choice Operation) where
  start
    | .call operation, _, s => some (operation.program m modelName, s)
    | _, _, _ => none
  answer
    | .reply, _, s, .api request => some (s.handle request)
    | .bytes drawn, _, s, .rand n accept =>
      if h : drawn.length = n ∧ accept drawn = true then some (.ok ⟨drawn, h⟩, s) else none
    | .seconds now, _, s, .now => some (now, s)
    | _, _, _, _ => none
  finish _ s _ := some s
  env _ _ := none

private theorem runner_sound (m : Manager) (modelName : GoString) :
    (runner m modelName).Sound (machine m modelName) where
  start o i s p s' h := by
    cases o with
    | call operation =>
      obtain ⟨rfl, rfl⟩ := Prod.mk.inj (Option.some.inj h)
      exact ⟨rfl, operation, rfl⟩
    | reply => cases h
    | bytes drawn => cases h
    | seconds now => cases h
  answer o i s q a s' h := by
    unfold runner at h
    simp only at h
    split at h
    · obtain ⟨rfl, rfl⟩ := Prod.mk.inj (Option.some.inj h)
      exact .api _
    · split_ifs at h
      obtain ⟨rfl, rfl⟩ := Prod.mk.inj (Option.some.inj h)
      exact .rand _
    · obtain ⟨rfl, rfl⟩ := Prod.mk.inj (Option.some.inj h)
      exact .now _
    · cases h
  finish i s r s' h := (Option.some.inj h).symm
  env o s s' h := by cases h

/-- The model's Secret and ConfigMap as the operator creates them. -/
def chatCluster : Cluster :=
  let s := (ApiServer.empty.create .secret (secretName "chat") ⟨{}, {}⟩).2
  (s.create .configMap (configMapName "chat") ⟨{}, {}⟩).2

def mint (i : Nat) : Machine.Move Nat (Choice Operation) := .start i (.call (.create alice []))

/-- Two mints: the second one reads the Secret of the first and the ConfigMap
from before it, and the first one's ConfigMap update then conflicts. -/
def overlap : List (Machine.Move Nat (Choice Operation)) :=
  [mint 0, .answer 0 .reply, .answer 0 .reply, .answer 0 (.bytes [0, 0, 0, 0, 0, 0, 0, 0]),
    .answer 0 (.bytes (List.replicate 24 0)), .answer 0 .reply,
    mint 1, .answer 1 .reply, .answer 1 .reply, .answer 1 (.bytes [0, 0, 0, 0, 0, 0, 0, 1]),
    .answer 1 (.bytes (List.replicate 24 1)), .answer 1 .reply, .answer 1 (.seconds 0),
      .answer 1 .reply, .finish 1,
    .answer 0 (.seconds 0), .answer 0 .reply, .finish 0]

def overlapped : Option (Config Cluster Request Answer Outcome Nat) :=
  (runner chatManager "chat").run overlap ⟨chatCluster, fun _ => none⟩

def lostID : GoString := chatManager.clientID "chat" alice [0, 0, 0, 0, 0, 0, 0, 0]

private theorem overlapped_ends :
    overlapped.any (fun c =>
      (c.state.lookup .secret (secretName "chat")).any (fun secret => lostID ∈ secret.body.data) &&
      (c.state.lookup .configMap (configMapName "chat")).any (fun cm => lostID ∉ cm.body.data) &&
      (c.threads 0).isNone && (c.threads 1).isNone) = true := by
  decide +kernel

private theorem chatCluster_synced : Synced "chat" chatCluster := by
  intro secret cm hsecret hcm id
  have hsecret' : chatCluster.lookup .secret (secretName "chat") =
      some ⟨{ uid := 1, resourceVersion := 1, generation := 1 }, {}⟩ := by decide +kernel
  have hcm' : chatCluster.lookup .configMap (configMapName "chat") =
      some ⟨{ uid := 2, resourceVersion := 2, generation := 1 }, {}⟩ := by decide +kernel
  obtain rfl := Option.some.inj (hsecret.symm.trans hsecret')
  obtain rfl := Option.some.inj (hcm.symm.trans hcm')
  exact iff_of_false Finmap.notMem_empty (by simp [Listed])

/-- After two overlapping mints, with no call in progress, a live credential has no entry. -/
theorem overlap_desyncs : ∃ c : Config Cluster Request Answer Outcome Nat,
    (machine chatManager "chat").Reachable (Synced "chat") c ∧ (∀ i, c.threads i = none) ∧
      ¬Synced "chat" c.state := by
  obtain ⟨c, hrun, hends⟩ := (Option.any_eq_true _ _).mp overlapped_ends
  simp only [Bool.and_eq_true, Option.isNone_iff_eq_none] at hends
  obtain ⟨⟨⟨hsecret, hcm⟩, hzero⟩, hone⟩ := hends
  obtain ⟨secret, hsecret, hlost⟩ := (Option.any_eq_true _ _).mp hsecret
  obtain ⟨cm, hcm, habsent⟩ := (Option.any_eq_true _ _).mp hcm
  refine ⟨c, (runner_sound chatManager "chat").reachable (.init chatCluster_synced) hrun,
    fun i => ?_,
    fun hsynced => ?_⟩
  · by_cases h0 : i = 0
    · rw [h0, hzero]
    by_cases h1 : i = 1
    · rw [h1, hone]
    · refine Machine.Runner.run_other hrun ?_
      simp [overlap, mint, Machine.Move.thread, Ne.symm h0, Ne.symm h1]
  · obtain ⟨info, hinfo, _⟩ := (hsynced secret cm hsecret hcm lostID).mp (of_decide_eq_true hlost)
    exact of_decide_eq_true habsent (Finmap.mem_of_lookup_eq_some hinfo)

/-- Two mints that are called at once, the second of which reads the Secret and the ConfigMap
after the first has updated both. -/
def inTurn : List (Machine.Move Nat (Choice Operation)) :=
  [mint 0, mint 1, .answer 0 .reply, .answer 0 .reply, .answer 0 (.bytes [0, 0, 0, 0, 0, 0, 0, 0]),
    .answer 0 (.bytes (List.replicate 24 0)), .answer 0 .reply, .answer 0 (.seconds 0),
      .answer 0 .reply,
    .answer 1 .reply, .answer 1 .reply, .answer 1 (.bytes [0, 0, 0, 0, 0, 0, 0, 1]),
    .answer 1 (.bytes (List.replicate 24 1)), .answer 1 .reply, .finish 0, .answer 1 (.seconds 0),
      .answer 1 .reply,
    .finish 1]

def minted : Option (Config Cluster Request Answer Outcome Nat) :=
  ((runner chatManager "chat").guard (fun _ => configMapCurrent) (fun _ _ => True)).run inTurn
    ⟨chatCluster, fun _ => none⟩

/-- The client ID of the second mint. -/
def secondID : GoString := chatManager.clientID "chat" alice [0, 0, 0, 0, 0, 0, 0, 1]

private theorem minted_ends :
    minted.any (fun c =>
      (c.state.lookup .secret (secretName "chat")).any
      (fun secret => lostID ∈ secret.body.data ∧ secondID ∈ secret.body.data) &&
      (c.threads 0).isNone && (c.threads 1).isNone) = true := by
  decide +kernel

/-- After mints that meet no conflict their keys are live, and listed. -/
theorem mints_in_turn_synced : ∃ c : Config Cluster Request Answer Outcome Nat,
    (∃ secret, c.state.lookup .secret (secretName "chat") = some secret ∧
      lostID ∈ secret.body.data ∧ secondID ∈ secret.body.data) ∧ Synced "chat" c.state := by
  obtain ⟨c, hrun, hends⟩ := (Option.any_eq_true _ _).mp minted_ends
  simp only [Bool.and_eq_true, Option.isNone_iff_eq_none] at hends
  obtain ⟨⟨hsecret, hzero⟩, hone⟩ := hends
  obtain ⟨secret, hsecret, hmem⟩ := (Option.any_eq_true _ _).mp hsecret
  refine ⟨c, ⟨secret, hsecret, of_decide_eq_true hmem⟩,
    keys_synced_of_configMapCurrent (m := chatManager)
    (((runner_sound chatManager "chat").guard _ _).reachable (.init chatCluster_synced) hrun)
      (fun i => ?_)⟩
  by_cases h0 : i = 0
  · rw [h0, hzero]
  by_cases h1 : i = 1
  · rw [h1, hone]
  · refine Machine.Runner.run_other hrun ?_
    simp [inTurn, mint, Machine.Move.thread, Ne.symm h0, Ne.symm h1]

end Scripts

end secrets
