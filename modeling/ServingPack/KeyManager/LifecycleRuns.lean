import ServingPack.KeyManager.LifecycleWrites

open golang apiserver concurrency kube

namespace secrets.lifecycle

section Steps

variable {m : Manager} {modelName : GoString} {s s' : State} {φ : Nat → Phase} {i : Nat}
  {task : Task} {stage : Stage}

/-- A draw is in no key that exists, and held by nobody else. -/
theorem Inv.draw (hinv : Inv m modelName s φ) {secret : Object SecretBody}
    {cm : Object ConfigMapBody} {suffix : List UInt8}
    (hi : φ i = some (task, .readBoth secret cm)) (hlength : suffix.length = 8)
    (hfresh : suffix ∉ s.drawn)
    (hfree : ∀ creator description, task = .call (.create creator description) →
      m.clientID modelName creator suffix ∉ secret.body.data ∧
      m.clientID modelName creator suffix ∉ cm.body.data) :
    Inv m modelName { s with drawn := suffix :: s.drawn }
      (Function.update φ i (some (task, .drew secret cm suffix))) := by
  have hready := hinv.quiet { s with drawn := suffix :: s.drawn }
    (.of_eq hinv.ledger rfl rfl rfl rfl) rfl rfl
    (List.subset_cons_self _ _) hinv.ledger.begins
      (Nat.le_refl _) rfl rfl hinv.coherent hinv.unfinished (fun _ _ _ hp => hp)
    (fun _ _ hs => hs) hi (show Stage.ready.Holds m modelName _ _ from trivial) (.inl rfl)
      (fun h => h.elim)
  obtain ⟨htask, hsecret, hcm⟩ := hinv.handled i _ _ hi
  have hother {j : Nat} (hji : j ≠ i) (ψ : Phase) : Function.update φ i ψ j = φ j :=
    Function.update_of_ne hji ..
  refine ⟨hready.coherent, hready.unfinished, hready.ledger, fun j task' stage' hj => ?_,
    fun j suffix' hj => ?_,
    fun j k id stage' stage'' hj hk herasing herasing' => ?_⟩
  · by_cases hji : j = i
    · rw [hji, Function.update_self, Option.some.injEq, Prod.mk.injEq] at hj
      obtain ⟨rfl, rfl⟩ := hj
      rw [hji]
      exact ⟨htask, hsecret, hcm, hfree⟩
    · rw [hother hji] at hj
      exact hready.handled j task' stage' (by rw [hother hji, hj])
  · by_cases hji : j = i
    · rw [hji, Function.update_self] at hj
      obtain rfl : suffix = suffix' := Option.some.inj hj
      refine ⟨List.mem_cons_self, hlength, fun idPrefix hknown => ?_, fun k hk heq => ?_⟩
      · obtain ⟨used, hused, hlength', idPrefix', heq⟩ := hinv.ledger.made _ hknown
        rw [suffix_eq hlength hlength' heq] at hfresh
        exact hfresh hused
      · rw [hji] at hk
        rw [hother hk] at heq
        exact hfresh (hinv.suffixes k suffix heq).1
    · rw [hother hji] at hj
      obtain ⟨hdrawn, hlength', hunknown, hdistinct⟩ := hinv.suffixes j suffix' hj
      refine ⟨List.mem_cons_of_mem _ hdrawn, hlength', hunknown, fun k hkj heq => ?_⟩
      by_cases hki : k = i
      · rw [hki, Function.update_self] at heq
        obtain rfl : suffix = suffix' := Option.some.inj heq
        exact hfresh hdrawn
      · rw [hother hki] at heq
        exact hdistinct k hkj heq
  · have hnot {l : Nat} {stage : Stage}
      (hl : Function.update φ i (some (task, .drew secret cm suffix)) l =
        some (.call (.revoke id), stage)) (herasing : stage.Erasing) : l ≠ i := by
      rintro rfl
      rw [Function.update_self, Option.some.injEq, Prod.mk.injEq] at hl
      rw [← hl.2] at herasing
      exact herasing
    have hji := hnot hj herasing
    have hki := hnot hk herasing'
    rw [hother hji] at hj
    rw [hother hki] at hk
    exact hinv.alone j k id stage' stage'' hj hk herasing herasing'

section Answered

variable {history : History Body} {reads : Kind → Bool}

/-- What a task reads changes nothing. -/
theorem Inv.looked (hinv : Inv m modelName s φ) {request : apiserver.Request Body}
    {a : apiserver.Answer request}
    (hobserved : Observed (fun _ => False) reads s.history request a history)
    (htarget : request.target = none) (hi : φ i = some (task, stage)) {stage' : Stage}
    (hholds : stage'.Holds m modelName { s with history := history } task)
    (hsuffix : stage'.suffix = none) (herasing : ¬stage'.Erasing) :
    Inv m modelName (s.answered modelName i history)
      (Function.update φ i (some (task, stage'))) := by
  have hkeys := keys_of_frame modelName hobserved (by simp [htarget])
  have hentries := entries_of_frame modelName hobserved (by simp [htarget])
  exact hinv.unchanged hobserved hkeys hentries hi hholds (.inl hsuffix)
    (fun h => absurd h herasing)

/-- A call reads the Secret at the beginning of an attempt. -/
theorem Inv.readSecret (hinv : Inv m modelName s φ) {operation : Operation}
    (hi : φ i = some (.call operation, stage)) (hstage : stage.Attempts)
    {a : apiserver.Answer (.get (B := Body) .secret (secretName modelName))}
    (hobserved : Observed (fun _ => False) reads s.history
      (.get .secret (secretName modelName)) a history) :
    Inv m modelName (s.answered modelName i history) (Function.update φ i (some (.call operation,
      next (.call operation) stage (.api (.get .secret (secretName modelName))) a))) := by
  have hready := hinv.looked hobserved rfl hi
    (show Stage.ready.Holds m modelName _ _ from trivial) rfl id
  cases a with
  | error e => cases stage <;> exact hready
  | ok secret =>
    have hsecret : Past s.cluster .secret (secretName modelName) secret :=
      hinv.coherent.read hobserved
    have hread := hinv.looked hobserved rfl hi
      (show (Stage.readSecret secret).Holds m modelName _ _ from hsecret.observed hobserved) rfl id
    cases stage <;> first | exact hread | exact hstage.elim

/-- A call reads the ConfigMap after the Secret. -/
theorem Inv.readConfigMap (hinv : Inv m modelName s φ) {operation : Operation}
    {secret : Object SecretBody} (hi : φ i = some (.call operation, .readSecret secret))
    {a : apiserver.Answer (.get (B := Body) .configMap (configMapName modelName))}
    (hobserved : Observed (fun _ => False) reads s.history
      (.get .configMap (configMapName modelName)) a history) :
    Inv m modelName (s.answered modelName i history) (Function.update φ i (some (.call operation,
      next (.call operation) (.readSecret secret)
        (.api (.get .configMap (configMapName modelName))) a))) := by
  obtain ⟨_, hsecret⟩ := hinv.handled i _ _ hi
  cases a with
  | error e => exact hinv.looked hobserved rfl hi trivial rfl id
  | ok cm =>
    have hcm : Past s.cluster .configMap (configMapName modelName) cm :=
      hinv.coherent.read hobserved
    exact hinv.looked hobserved rfl hi ⟨Past.observed hsecret hobserved,
      hcm.observed hobserved⟩ rfl id

/-- A draw of a key's random bytes keeps the suffix that its call holds. -/
theorem Inv.drawKey (hinv : Inv m modelName s φ) {secret : Object SecretBody}
    {cm : Object ConfigMapBody}
    {suffix bytes : List UInt8} (hi : φ i = some (task, .drew secret cm suffix)) :
    Inv m modelName { s with drawn := bytes :: s.drawn }
      (Function.update φ i (some (task, .drewKey secret cm suffix bytes))) := by
  obtain ⟨_, hholds⟩ := hinv.handled i _ _ hi
  exact hinv.quiet { s with drawn := bytes :: s.drawn } (.of_eq hinv.ledger rfl rfl rfl rfl) rfl rfl
    (List.subset_cons_self _ _) hinv.ledger.begins
      (Nat.le_refl _) rfl rfl hinv.coherent hinv.unfinished
    (fun _ _ _ hp => hp) (fun _ _ hs => hs) hi hholds (.inr rfl) (fun h => h.elim)

/-- A revocation reads the clock once its key is erased. -/
theorem Inv.stampRevoked (hinv : Inv m modelName s φ) {id : GoString} {cm : Object ConfigMapBody}
    (hi : φ i = some (.call (.revoke id), .erased cm)) :
    Inv m modelName s (Function.update φ i (some (.call (.revoke id), .timed cm s.clock))) := by
  obtain ⟨htask, hcm, hrevoking⟩ := hinv.handled i _ _ hi
  refine hinv.move hi ⟨Nat.le_refl _, hcm, fun id' htask' => ?_⟩ (.inl rfl) (fun h => h)
  obtain rfl := Operation.revoke.inj (Task.call.inj htask')
  refine ⟨?_, hrevoking id rfl⟩
  -- this very task had begun before the clock was read
  obtain ⟨hlength, hbegins⟩ := hinv.ledger.begins
  have hlt : i < s.begins.length := by
    rw [hlength]
    exact (List.getElem?_eq_some_iff.mp htask).1
  exact ⟨i, s.begins[i], htask, List.getElem?_eq_getElem hlt, hbegins _ (List.getElem_mem hlt)⟩

/-- A reconcile reads the Secret that it is to label. -/
theorem Inv.findSecret (hinv : Inv m modelName s φ) {labels : GoMap GoString}
    (hi : φ i = some (.reconcileSecret labels, .ready))
    {a : apiserver.Answer (.get (B := Body) .secret (secretName modelName))}
    (hobserved : Observed (fun _ => False) reads s.history
      (.get .secret (secretName modelName)) a history) :
    Inv m modelName (s.answered modelName i history)
      (Function.update φ i (some (.reconcileSecret labels,
      next (.reconcileSecret labels) .ready (.api (.get .secret (secretName modelName))) a))) := by
  cases a with
  | error e => exact hinv.looked hobserved rfl hi trivial rfl id
  | ok existing =>
    have hpast : Past s.cluster .secret (secretName modelName) existing :=
      hinv.coherent.read hobserved
    exact hinv.looked hobserved rfl hi (hpast.observed hobserved) rfl id

private theorem Inv.findConfigMap (hinv : Inv m modelName s φ) {labels : GoMap GoString}
    (hi : φ i = some (.reconcileConfigMap labels, .ready))
    {a : apiserver.Answer (.get (B := Body) .configMap (configMapName modelName))}
    (hobserved : Observed (fun _ => False) reads s.history
      (.get .configMap (configMapName modelName)) a history) :
    Inv m modelName (s.answered modelName i history)
      (Function.update φ i (some (.reconcileConfigMap labels,
      next (.reconcileConfigMap labels) .ready
        (.api (.get .configMap (configMapName modelName))) a))) := by
  cases a with
  | error e => exact hinv.looked hobserved rfl hi trivial rfl id
  | ok existing =>
    have hpast : Past s.cluster .configMap (configMapName modelName) existing :=
      hinv.coherent.read hobserved
    exact hinv.looked hobserved rfl hi (hpast.observed hobserved) rfl id

/-- A reconcile writes the Secret's labels, and leaves its keys. -/
theorem Inv.relabelSecret (hinv : Inv m modelName s φ) {labels : GoMap GoString}
    {existing : Object SecretBody} (hi : φ i = some (task, .foundSecret existing))
    {a : apiserver.Answer (.update (B := Body) .secret (secretName modelName)
      { existing with metadata.labels := labels })}
    (hobserved : Observed (fun _ => False) reads s.history
      (.update Kind.secret (secretName modelName)
      { existing with metadata.labels := labels }) a history) :
    Inv m modelName (s.answered modelName i history)
      (Function.update φ i (some (task, .ready))) := by
  obtain ⟨_, hholds⟩ := hinv.handled i _ _ hi
  have hentries := entries_of_frame modelName hobserved (by simp [apiserver.Request.target])
  have hexec : Exec (fun _ => False) s.cluster _ a _ :=
    hobserved.exec_of_target (by simp [apiserver.Request.target])
  have hkeys := update_secretData hexec hinv.unfinished hholds.2 rfl rfl rfl
  exact hinv.unchanged hobserved hkeys hentries hi trivial (.inl rfl) (fun h => h.elim)

private theorem Inv.relabelConfigMap (hinv : Inv m modelName s φ) {labels : GoMap GoString}
    {existing : Object ConfigMapBody} (hi : φ i = some (task, .foundConfigMap existing))
    {a : apiserver.Answer (.update (B := Body) .configMap (configMapName modelName)
      { existing with metadata.labels := labels })}
    (hobserved : Observed (fun _ => False) reads s.history
      (.update Kind.configMap (configMapName modelName)
      { existing with metadata.labels := labels }) a history) :
    Inv m modelName (s.answered modelName i history)
      (Function.update φ i (some (task, .ready))) := by
  obtain ⟨_, hholds⟩ := hinv.handled i _ _ hi
  have hkeys := keys_of_frame modelName hobserved (by simp [apiserver.Request.target])
  have hexec : Exec (fun _ => False) s.cluster _ a _ :=
    hobserved.exec_of_target (by simp [apiserver.Request.target])
  have hentries := update_metadata hexec hinv.unfinished hholds.2 rfl rfl rfl
  exact hinv.unchanged hobserved hkeys hentries hi trivial (.inl rfl) (fun h => h.elim)

/-- A reconcile creates a Secret without keys where there is none. -/
theorem Inv.createSecret (hinv : Inv m modelName s φ) {object : Object SecretBody}
    (hempty : object.body.data = ∅) (hi : φ i = some (task, .ready))
    {a : apiserver.Answer (.create (B := Body) .secret (secretName modelName) object)}
    (hobserved : Observed (fun _ => False) reads s.history
      (.create Kind.secret (secretName modelName) object) a history) :
    Inv m modelName (s.answered modelName i history)
      (Function.update φ i (some (task, .ready))) := by
  have hentries := entries_of_frame modelName hobserved (by simp [apiserver.Request.target])
  have hexec : Exec (fun _ => False) s.cluster _ a _ :=
    hobserved.exec_of_target (by simp [apiserver.Request.target])
  exact hinv.unchanged hobserved (create_secretData hexec hempty) hentries hi trivial (.inl rfl)
    (fun h => h.elim)

private theorem Inv.createConfigMap (hinv : Inv m modelName s φ) {object : Object ConfigMapBody}
    (hempty : object.body.data = ∅) (hi : φ i = some (task, .ready))
    {a : apiserver.Answer (.create (B := Body) .configMap (configMapName modelName) object)}
    (hobserved : Observed (fun _ => False) reads s.history
      (.create Kind.configMap (configMapName modelName) object) a
      history) : Inv m modelName (s.answered modelName i history)
        (Function.update φ i (some (task, .ready))) := by
  have hkeys := keys_of_frame modelName hobserved (by simp [apiserver.Request.target])
  have hexec : Exec (fun _ => False) s.cluster _ a _ :=
    hobserved.exec_of_target (by simp [apiserver.Request.target])
  exact hinv.unchanged hobserved hkeys (create_metadata hexec hempty) hi trivial (.inl rfl)
    (fun h => h.elim)

end Answered

/-- What a task is answered keeps the invariant. -/
theorem Inv.exec (hinv : Inv m modelName s φ) {q : Request} {a : Answer q}
    (hi : φ i = some (task, stage))
    (hallowed : Allowed m modelName task stage q) (hexec : Respond modelName i s q a s') :
    Inv m modelName s' (Function.update φ i (some (task, next task stage q a))) := by
  obtain ⟨_, hholds⟩ := hinv.handled i task stage hi
  cases hallowed with
  | readSecret hstage =>
    cases hexec with
    | api _ hobserved => exact hinv.readSecret hi hstage hobserved
  | readConfigMap =>
    cases hexec with
    | api _ hobserved => exact hinv.readConfigMap hi hobserved
  | drawSuffix haccept =>
    cases hexec with
    | rand suffix hfresh =>
      refine hinv.draw hi suffix.property.1 hfresh (fun creator' description' htask' => ?_)
      obtain ⟨rfl, rfl⟩ := Operation.create.inj (Task.call.inj htask')
      exact haccept suffix.val suffix.property.2
    | randFailed e => exact hinv.move hi trivial (.inl rfl) (fun h => h.elim)
  | drawKey =>
    cases hexec with
    | rand bytes hfresh => exact hinv.drawKey hi
    | randFailed e => exact hinv.move hi trivial (.inl rfl) (fun h => h.elim)
  | store =>
    cases hexec with
    | api _ hobserved => exact hinv.store hi hobserved
  | stampCreated =>
    cases hexec with
    | now => exact hinv.move hi hholds (.inl rfl) (fun h => h.elim)
  | record hclientID hnames hlive =>
    cases hexec with
    | api _ hobserved => exact hinv.record hi hclientID hnames hlive rfl hobserved
  | erase hmem =>
    cases hexec with
    | api _ hobserved => exact hinv.erase hi hmem hobserved
  | stampRevoked =>
    cases hexec with
    | now => exact hinv.stampRevoked hi
  | bury =>
    cases hexec with
    | api _ hobserved => exact hinv.bury hi rfl hobserved
  | findSecret =>
    cases hexec with
    | api _ hobserved => exact hinv.findSecret hi hobserved
  | relabelSecret =>
    cases hexec with
    | api _ hobserved => cases a <;> exact hinv.relabelSecret hi hobserved
  | createSecret =>
    cases hexec with
    | api _ hobserved => cases a <;> exact hinv.createSecret rfl hi hobserved
  | findConfigMap =>
    cases hexec with
    | api _ hobserved => exact hinv.findConfigMap hi hobserved
  | relabelConfigMap =>
    cases hexec with
    | api _ hobserved => cases a <;> exact hinv.relabelConfigMap hi hobserved
  | createConfigMap =>
    cases hexec with
    | api _ hobserved => cases a <;> exact hinv.createConfigMap rfl hi hobserved

/-- Records alone do not change what a task has come to know. -/
theorem Inv.others (hinv : Inv m modelName s φ) (s' : State) (hsame : SameRecords s s')
    (hhistory : s'.history = s.history)
    (hdrawn : s'.drawn = s.drawn) (hclock : s.clock ≤ s'.clock) (hledger : Ledger modelName s')
    {ψ : Phase} (hholds : ∀ task stage, ψ = some (task, stage) → s'.tasks[i]? = some task ∧
      stage.Holds m modelName s' task)
    (hsuffix : ψ.suffix = none ∨ ψ.suffix = (φ i).suffix)
    (herasing : ∀ task stage, ψ = some (task, stage) → stage.Erasing → φ i = ψ) :
    Inv m modelName s' (Function.update φ i ψ) := by
  have hcluster : s'.cluster = s.cluster := congrArg History.current hhistory
  refine hinv.step (hsame.onward hclock (by rw [hdrawn]; exact List.Subset.refl _) ?_ ?_ ?_) ?_ ?_
    hledger
    (fun _ _ _ _ _ _ _ hb => .inl (hsame.buried.mp hb)) hholds
      (fun _ hknown => .inl (hsame.known.mp hknown))
    (hsuffix.imp_right (fun h => ⟨h, fun _ hknown => hsame.known.mp hknown⟩))
    (fun id stage heq herasing' => .inl ⟨stage, (herasing _ _ heq herasing').trans heq, herasing'⟩)
  · rw [State.keys, State.keys, hcluster]
  · rw [hcluster]
    exact fun _ _ _ hp => hp
  · rw [hcluster]
    exact fun _ _ hs => hs
  · rw [hhistory]
    exact hinv.coherent
  · rw [hcluster]
    exact hinv.unfinished

/-- A task begins. -/
theorem Inv.begin (hinv : Inv m modelName s φ) (task : Task) :
    Inv m modelName { s with tasks := s.tasks ++ [task], begins := s.begins ++ [s.clock] }
      (Function.update φ s.tasks.length (some (task, .ready))) := by
  have hsame : SameRecords s { s with tasks := s.tasks ++ [task], begins := s.begins ++ [s.clock] } :=
    ⟨List.prefix_append .., List.prefix_append .., hinv.ledger.authors, rfl, rfl⟩
  refine hinv.others _ hsame rfl rfl (Nat.le_refl _) ?_ (fun task' stage heq => ?_) (.inl rfl) (fun task' stage heq h => ?_)
  · refine hinv.ledger.congr hsame rfl rfl (List.Subset.refl _) (Nat.le_refl _) ⟨?_, fun began hbegan => ?_⟩
      (fun _ hp => .inl hp) (fun _ hid => .inl hid)
    · simp only [List.length_append, hinv.ledger.begins.1]
      rfl
    · rcases List.mem_append.mp hbegan with hold | hnew
      · exact hinv.ledger.begins.2 began hold
      · exact (List.mem_singleton.mp hnew).le
  · rw [Option.some.injEq, Prod.mk.injEq] at heq
    obtain ⟨rfl, rfl⟩ := heq
    exact ⟨List.getElem?_concat_length .., trivial⟩
  · rw [Option.some.injEq, Prod.mk.injEq] at heq
    rw [← heq.2] at h
    exact h.elim

/-- A task ends: what it returns is on record. -/
theorem Inv.finish (hinv : Inv m modelName s φ) {r : Outcome} (hends : Ends m modelName r (φ i)) :
    Inv m modelName (s.ended i r) (Function.update φ i none) := by
  obtain ⟨task, stage, hi, hcreate, hrevoke⟩ := hends
  obtain ⟨htask, hholds⟩ := hinv.handled i task stage hi
  have hkeep {s' : State} (hledger : Ledger modelName s') (hsame : SameRecords s s')
    (hhistory : s'.history = s.history)
      (hdrawn : s'.drawn = s.drawn) (hclock : s'.clock = s.clock) :
        Inv m modelName s' (Function.update φ i none) :=
    hinv.others s' hsame hhistory hdrawn hclock.ge hledger (fun _ _ h => by cases h) (.inl rfl)
      (fun _ _ h => by cases h)
  unfold State.ended
  split
  · next creator description result hcall =>
    obtain rfl := Option.some.inj (htask.symm.trans hcall)
    obtain ⟨suffix, bytes, hφ, hclientID, hapiKey⟩ := hcreate creator description result rfl rfl
    rw [hi, Option.some.injEq, Prod.mk.injEq] at hφ
    obtain ⟨_, rfl⟩ := hφ
    obtain ⟨hstored, hrecorded⟩ := hholds creator description rfl
    rw [← hclientID] at hstored hrecorded
    rw [← hapiKey] at hstored
    have hsame : SameRecords s { s with created := (result, creator) :: s.created } :=
      .of_eq hinv.ledger rfl rfl rfl rfl
    refine hkeep (hinv.ledger.congr hsame rfl rfl (List.Subset.refl _)
      (Nat.le_refl _) hinv.ledger.begins (fun p hp => ?_)
      (fun _ hid => .inl hid)) hsame rfl rfl rfl
    rcases List.mem_cons.mp hp with rfl | hold
    · exact .inr ⟨hstored, hrecorded⟩
    · exact .inl hold
  · next id result hcall =>
    obtain rfl := Option.some.inj (htask.symm.trans hcall)
    obtain rfl := hrevoke id result rfl rfl
    have hsame : SameRecords s { s with revoked := id :: s.revoked } :=
      .of_eq hinv.ledger rfl rfl rfl rfl
    refine hkeep (hinv.ledger.congr hsame rfl rfl (List.Subset.refl _)
      (Nat.le_refl _) hinv.ledger.begins
      (fun _ hp => .inl hp) (fun id' hid' => ?_)) hsame rfl rfl rfl
    rcases List.mem_cons.mp hid' with rfl | hold
    · exact .inr (hholds id' rfl)
    · exact .inl hold
  · exact hkeep hinv.ledger (.of_eq hinv.ledger rfl rfl rfl rfl) rfl rfl rfl

/-- Time passes. -/
theorem Inv.tick (hinv : Inv m modelName s φ) (d : Nat) :
    Inv m modelName { s with clock := s.clock + d } φ := by
  have hsame : SameRecords s { s with clock := s.clock + d } := .of_eq hinv.ledger rfl rfl rfl rfl
  have honward : Onward modelName s { s with clock := s.clock + d } :=
    hsame.onward (Nat.le_add_right ..) (List.Subset.refl _) rfl (fun _ _ _ hp => hp)
      (fun _ _ hs => hs)
  have hledger : Ledger modelName { s with clock := s.clock + d } :=
    hinv.ledger.congr hsame rfl rfl (List.Subset.refl _) (Nat.le_add_right ..)
      (hinv.ledger.begins.imp_right
        (fun hall began hbegan => (hall began hbegan).trans (Nat.le_add_right ..)))
      (fun _ hp => .inl hp) (fun _ hid => .inl hid)
  rw [← Function.update_eq_self 0 φ]
  refine hinv.others _ hsame rfl rfl (Nat.le_add_right ..) hledger (fun task stage h0 => ?_)
    (.inr rfl)
    (fun _ _ _ _ => rfl)
  obtain ⟨htask, hholds⟩ := hinv.handled 0 task stage h0
  exact ⟨htask, hholds.onward honward (fun id info hb => .inl (hsame.buried.mp hb))⟩

private theorem Inv.init (hinit : Initial modelName s) : Inv m modelName s (fun _ => none) := by
  have hstored {id key : GoString} (h : Stored s id key) : False := by
    obtain ⟨w, hw, _⟩ := h
    rw [hinit.secretWrites] at hw
    cases hw
  have hrecorded {id : GoString} {creator : Creator} (h : Recorded s id creator) : False := by
    obtain ⟨w, hw, _⟩ := h
    rw [hinit.metadataWrites] at hw
    cases hw
  have hburied {id : GoString} {info : KeyInfo} (h : Buried s id info) : False := by
    obtain ⟨w, hw, _⟩ := h
    rw [hinit.metadataWrites] at hw
    cases hw
  refine ⟨hinit.coherent, hinit.unfinished,
    ⟨?_, ?_, fun _ ⟨_, h⟩ => (hstored h).elim, fun id hid => ?_,
    fun _ _ h => (hstored h).elim, fun id entry hentry => ?_, fun _ _ h => (hrecorded h).elim,
      fun _ _ h => (hburied h).elim,
    ?_, ?_⟩, fun _ _ _ heq => (Option.some_ne_none _ heq.symm).elim,
      fun _ _ heq => (Option.some_ne_none _ heq.symm).elim,
    fun _ _ _ _ _ heq => (Option.some_ne_none _ heq.symm).elim⟩
  · rw [hinit.metadataWrites]
    nofun
  · rw [hinit.begins, hinit.tasks]
    exact ⟨rfl, nofun⟩
  · rw [hinit.keys] at hid
    exact absurd hid Finmap.notMem_empty
  · rw [hinit.entries, Finmap.lookup_empty] at hentry
    cases hentry
  · rw [hinit.created]
    nofun
  · rw [hinit.revoked]
    nofun

private theorem keeps (m : Manager) (modelName : GoString) :
    (protocol m modelName).Keeps (machine m modelName) (Initial modelName) none (Ends m modelName)
    (Inv m modelName) where
  init _ hinit := .init hinit
  start i s φ p s' hinv hidle hstart := by
    obtain ⟨rfl, task, rfl, rfl⟩ := hstart
    exact ⟨_, hinv.begin task, follows_task task⟩
  exec i s φ q a s' hinv hallowed hexec := by
    obtain ⟨task, stage, hi, hallowed⟩ := hallowed
    have hkept := hinv.exec hi hallowed hexec
    simpa only [protocol, hi, Option.map_some] using hkept
  finish i s φ r s' hinv hpost hfinish := by
    obtain rfl : s' = s.ended i r := hfinish
    exact hinv.finish hpost
  env s φ s' hinv henv := by
    obtain ⟨d, rfl⟩ := henv
    exact hinv.tick d

end Steps

section Durable

/-- A key that `ListKeys` would show. -/
def Shown (s : State) (modelName id : GoString) : Prop :=
  ∃ cm, s.cluster.lookup .configMap (configMapName modelName) = some cm ∧
    ∃ info ∈ liveKeys (parseConfigMapKeys cm), info.clientID = id

/-- No created key and no revocation is lost. -/
structure Durable (m : Manager) (modelName : GoString)
    (c : Config State Request Answer Outcome Nat) : Prop where
  /-- A key that was returned is there, under its creator, until its revocation begins. -/
  created : ∀ result creator, (result, creator) ∈ c.state.created → ¬Begun c.state result.clientID →
    (c.state.keys modelName).lookup result.clientID = some result.apiKey ∧
    ∃ info, (c.state.entries modelName).lookup result.clientID = some (.keyInfo info) ∧
      info.revokedAt = none ∧
      Names info creator
  /-- A key that was revoked is gone and not shown. -/
  revoked : ∀ id ∈ c.state.revoked, id ∉ c.state.keys modelName ∧ ¬Shown c.state modelName id
  /-- Its tombstone stays as it is while the retention lasts, and names the creator. -/
  tombstones : ∀ id ∈ c.state.revoked, ∃ info t, info.revokedAt = some t ∧ BegunBy c.state id t ∧
    ∀ c', Relation.ReflTransGen (Machine.Step (machine m modelName)) c c' →
      (∀ result creator, (result, creator) ∈ c'.state.created → result.clientID = id →
        Names info creator) ∧
      (c'.state.clock ≤ t + revokedKeyRetention →
        (c'.state.entries modelName).lookup id = some (.keyInfo info))

variable {m : Manager} {modelName : GoString} {s : State} {φ : Nat → Phase}

private theorem Inv.kept (hinv : Inv m modelName s φ) {result : CreateKeyResult} {creator : Creator}
    (hmem : (result, creator) ∈ s.created) (hbegun : ¬Begun s result.clientID) :
    (s.keys modelName).lookup result.clientID = some result.apiKey ∧
    ∃ info, (s.entries modelName).lookup result.clientID = some (.keyInfo info) ∧
    info.revokedAt = none ∧
      Names info creator := by
  obtain ⟨hstored, hrecorded⟩ := hinv.ledger.created _ hmem
  refine ⟨hinv.ledger.live _ _ hstored hbegun, ?_⟩
  rcases hinv.ledger.recorded _ _ hrecorded with ⟨info, hinfo, hnames⟩ | ⟨_, info, hburied⟩
  · refine ⟨info, hinfo, by_contra (fun hrevoked => ?_), hnames⟩
    obtain ⟨_, info', hinfo', _, hburied⟩ := hinv.ledger.entries _ _ hinfo
    obtain rfl := Entry.keyInfo.inj hinfo'
    exact hbegun (hburied hrevoked).begun
  · exact absurd hburied.begun hbegun

private theorem Inv.gone (hinv : Inv m modelName s φ) {id : GoString} (hid : id ∈ s.revoked) :
    id ∉ s.keys modelName ∧ ¬Shown s modelName id := by
  obtain ⟨info, hburied⟩ := hinv.ledger.revoked id hid
  have htomb := hinv.ledger.buried id info hburied
  refine ⟨htomb.gone, fun ⟨cm, hcm, shown, hshown, hclientID⟩ => ?_⟩
  obtain ⟨hkey, hlive⟩ := mem_liveKeys.mp hshown
  obtain ⟨id', hid'⟩ := mem_parseConfigMapKeys.mp hkey
  have hentry : (s.entries modelName).lookup id' = some (.keyInfo shown) := by
    rw [State.entries, metadata_of_lookup hcm]
    exact hid'
  obtain ⟨_, info', hinfo', hclientID', _⟩ := hinv.ledger.entries _ _ hentry
  obtain rfl := Entry.keyInfo.inj hinfo'
  obtain rfl : id' = id := hclientID'.symm.trans hclientID
  -- what is left of the key says that it was revoked
  obtain ⟨t, ht, _, hthere | ⟨hnone, _⟩⟩ := htomb.kept
  · rw [hentry] at hthere
    rw [Entry.keyInfo.inj (Option.some.inj hthere), ht] at hlive
    cases hlive
  · rw [hentry] at hnone
    cases hnone

section Later

variable {c c' : Config State Request Answer Outcome Nat} {id : GoString} {info : KeyInfo}

private theorem buried_of_respond {i : Nat} {q : Request} {a : Answer q} {s' : State}
    (hexec : Respond modelName i s q a s') (hburied : Buried s id info) : Buried s' id info := by
  cases hexec with
  | api _ hobserved =>
    obtain ⟨w, hw, hrest⟩ := hburied
    refine ⟨w, ?_, hrest⟩
    unfold State.answered addWrite
    simp only
    split_ifs
    · exact hw
    · exact List.mem_cons_of_mem _ hw
  | rand => exact hburied
  | randFailed => exact hburied
  | now => exact hburied

/-- A tombstone stays on record. -/
theorem buried_of_step (hstep : Machine.Step (machine m modelName) c c')
    (hburied : Buried c.state id info) :
    Buried c'.state id info := by
  cases hstep with
  | start i hidle hstart =>
    obtain ⟨_, task, _, rfl⟩ := hstart
    obtain ⟨w, hw, htask, hentry⟩ := hburied
    exact ⟨w, hw, getElem?_of_initial (List.prefix_append ..) htask, hentry⟩
  | exec i hcall hexec => exact buried_of_respond hexec hburied
  | finish i hpure hfinish =>
    cases hfinish
    unfold State.ended
    split <;> exact hburied
  | env henv =>
    obtain ⟨d, rfl⟩ := henv
    exact hburied

private theorem buried_of_steps
    (hsteps : Relation.ReflTransGen (Machine.Step (machine m modelName)) c c')
    (hburied : Buried c.state id info) : Buried c'.state id info := by
  induction hsteps with
  | refl => exact hburied
  | tail _ hstep ih => exact buried_of_step hstep ih

private theorem reachable_of_steps (hreach : (machine m modelName).Reachable (Initial modelName) c)
    (hsteps : Relation.ReflTransGen (Machine.Step (machine m modelName)) c c') :
    (machine m modelName).Reachable (Initial modelName) c' := by
  induction hsteps with
  | refl => exact hreach
  | tail _ hstep ih => exact .step ih hstep

end Later

/-- In every run of `CreateKey`, `RevokeKey` and the operator's reconciles on one
model, whatever fails in between, no created key and no revocation is lost. -/
theorem keys_durable (m : Manager) (modelName : GoString)
    {c : Config State Request Answer Outcome Nat}
    (hreach : (machine m modelName).Reachable (Initial modelName) c) : Durable m modelName c := by
  obtain ⟨φ, hinv, _⟩ := (keeps m modelName).reachable hreach
  refine ⟨fun result creator hmem hbegun => hinv.kept hmem hbegun, fun id hid => hinv.gone hid,
    fun id hid => ?_⟩
  obtain ⟨info, hburied⟩ := hinv.ledger.revoked id hid
  obtain ⟨t, ht, hbegun, _⟩ := (hinv.ledger.buried id info hburied).kept
  refine ⟨info, t, ht, hbegun, fun c' hsteps => ?_⟩
  obtain ⟨φ', hinv', _⟩ := (keeps m modelName).reachable (reachable_of_steps hreach hsteps)
  have htomb := hinv'.ledger.buried id info (buried_of_steps hsteps hburied)
  refine ⟨fun result creator hmem heq => ?_, fun hlasts => ?_⟩
  · have hrecorded := (hinv'.ledger.created _ hmem).2
    rw [heq] at hrecorded
    exact htomb.names creator hrecorded
  · obtain ⟨t', ht', _, hthere | ⟨_, hlong⟩⟩ := htomb.kept
    · exact hthere
    · obtain rfl := Option.some.inj (ht.symm.trans ht')
      omega

end Durable

section Scripts

def runner (m : Manager) (modelName : GoString) :
    Machine.Runner State Request Answer Outcome Nat (Choice Task) where
  start
    | .call task, i, s =>
      if i = s.tasks.length then
        some (task.program m modelName,
          { s with tasks := s.tasks ++ [task], begins := s.begins ++ [s.clock] })
      else none
    | _, _, _ => none
  answer
    | .reply, i, s, .api request => if i < s.tasks.length then
        some ((s.cluster.handle request).1,
          s.answered modelName i (s.history.advance (s.cluster.handle request).2))
      else none
    | .reply, _, s, .now => some (s.clock, s)
    | .bytes drawn, _, s, .rand n accept =>
      if h : (drawn.length = n ∧ accept drawn = true) ∧ drawn ∉ s.drawn then
        some (.ok ⟨drawn, h.1⟩, { s with drawn := drawn :: s.drawn })
      else none
    | _, _, _, _ => none
  finish i s r := some (s.ended i r)
  env
    | .seconds d, s => some { s with clock := s.clock + d }
    | _, _ => none

private theorem runner_sound (m : Manager) (modelName : GoString) :
    (runner m modelName).Sound (machine m modelName) where
  start o i s p s' h := by
    unfold runner at h
    simp only at h
    split at h
    · split_ifs at h with hlength
      obtain ⟨rfl, rfl⟩ := Prod.mk.inj (Option.some.inj h)
      exact ⟨hlength, _, rfl, rfl⟩
    · cases h
  answer o i s q a s' h := by
    unfold runner at h
    simp only at h
    split at h
    · split_ifs at h with hlt
      obtain ⟨rfl, rfl⟩ := Prod.mk.inj (Option.some.inj h)
      exact .api (List.getElem?_eq_getElem hlt) (.direct (.reply _))
    · obtain ⟨rfl, rfl⟩ := Prod.mk.inj (Option.some.inj h)
      exact .now
    · split_ifs at h with hfresh
      obtain ⟨rfl, rfl⟩ := Prod.mk.inj (Option.some.inj h)
      exact .rand _ hfresh.2
    · cases h
  finish i s r s' h := (Option.some.inj h).symm
  env o s s' h := by
    unfold runner at h
    simp only at h
    split at h
    · exact ⟨_, (Option.some.inj h).symm⟩
    · cases h

/-- No cluster objects yet. -/
def emptyCluster : State where
  history := ⟨ApiServer.empty, []⟩

private theorem emptyCluster_initial : Initial "chat" emptyCluster where
  coherent := nofun
  unfinished kind name object h := by
    rw [emptyCluster, State.cluster, ApiServer.lookup, ApiServer.empty, Finmap.lookup_empty] at h
    cases h
  keys := rfl
  entries := rfl
  tasks := rfl
  begins := rfl
  created := rfl
  revoked := rfl
  secretWrites := rfl
  metadataWrites := rfl

def chatLabels : GoMap GoString := GoMap.ofList [("llm.nebari.dev/model-name", "chat")]

def firstID : GoString := chatManager.clientID "chat" alice [0, 0, 0, 0, 0, 0, 0, 0]

/-- The operator creates both objects; alice mints two keys and the first is revoked. -/
def mintTwoRevokeOne : List (Machine.Move Nat (Choice Task)) :=
  [.start 0 (.call (.reconcileSecret chatLabels)), .answer 0 .reply, .answer 0 .reply, .finish 0,
    .start 1 (.call (.reconcileConfigMap chatLabels)), .answer 1 .reply, .answer 1 .reply,
      .finish 1,
    .start 2 (.call (.call (.create alice []))), .answer 2 .reply, .answer 2 .reply,
    .answer 2 (.bytes [0, 0, 0, 0, 0, 0, 0, 0]), .answer 2 (.bytes (List.replicate 24 0)),
      .answer 2 .reply,
    .answer 2 .reply, .answer 2 .reply, .finish 2,
    .start 3 (.call (.call (.create alice []))), .answer 3 .reply, .answer 3 .reply,
    .answer 3 (.bytes [0, 0, 0, 0, 0, 0, 0, 1]), .answer 3 (.bytes (List.replicate 24 1)),
      .answer 3 .reply,
    .answer 3 .reply, .answer 3 .reply, .finish 3, .env (.seconds 60),
    .start 4 (.call (.call (.revoke firstID))), .answer 4 .reply, .answer 4 .reply,
      .answer 4 .reply, .answer 4 .reply,
    .answer 4 .reply, .finish 4]

def minted : Option (Config State Request Answer Outcome Nat) :=
  (runner chatManager "chat").run mintTwoRevokeOne ⟨emptyCluster, fun _ => none⟩

private theorem minted_ends :
    minted.any (fun c => c.state.created.length = 2 && c.state.revoked = [firstID]) = true := by
  decide +kernel

/-- Two keys are minted, one of them is revoked, and neither is lost. -/
theorem alice_durable : ∃ c : Config State Request Answer Outcome Nat,
    c.state.created.length = 2 ∧ c.state.revoked = [firstID] ∧ Durable chatManager "chat" c := by
  obtain ⟨c, hrun, hends⟩ := (Option.any_eq_true _ _).mp minted_ends
  rw [Bool.and_eq_true, decide_eq_true_eq, decide_eq_true_eq] at hends
  exact ⟨c, hends.1, hends.2, keys_durable chatManager "chat"
    ((runner_sound chatManager "chat").reachable (.init emptyCluster_initial) hrun)⟩

end Scripts

end secrets.lifecycle
