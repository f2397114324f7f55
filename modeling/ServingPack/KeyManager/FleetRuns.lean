import ServingPack.KeyManager.FleetInvariant

open golang apiserver concurrency kube

namespace secrets.fleet

variable {m : Manager} {pool : GoString → Prop} {st : State} {φ : Nat → Phase} {s : Cluster}

/-- The API requests of a call, by how far it has come. -/
theorem allowed_api {ψ : Phase} {request : apiserver.Request Body} (h : allowed ψ (.api request)) :
    (∃ name, request = .get .secret name) ∨ (∃ name, request = .get .configMap name) ∨
    (∃ name object, request = .update .configMap name object) ∨
    (∃ name secret object id, ψ = .read name secret ∧ request = .update .secret name object ∧
      object.metadata = secret.metadata ∧ object.body.data = secret.body.data.erase id) ∨
    ∃ name secret suffix bytes object idPrefix, ψ = .ready name secret suffix bytes ∧
      request = .update .secret name object ∧ object.metadata = secret.metadata ∧
      object.body.data = secret.body.data.insert (idPrefix ++ hexEncode suffix)
        (apiKeyText bytes) := by
  unfold allowed at h
  split at h
  · next name heq =>
    cases heq
    exact .inl ⟨name, rfl⟩
  · next name heq =>
    cases heq
    exact .inr (.inl ⟨name, rfl⟩)
  · next name object heq =>
    cases heq
    exact .inr (.inr (.inl ⟨name, object, rfl⟩))
  · next name secret name' object heq =>
    cases heq
    obtain ⟨rfl, hmetadata, id, hdata⟩ := h
    exact .inr (.inr (.inr (.inl ⟨_, secret, object, id, rfl, rfl, hmetadata, hdata⟩)))
  · next name secret suffix bytes name' object heq =>
    cases heq
    obtain ⟨rfl, hmetadata, idPrefix, hdata⟩ := h
    exact .inr (.inr (.inr
      (.inr ⟨_, secret, suffix, bytes, object, idPrefix, rfl, rfl, hmetadata, hdata⟩)))
  · next heq => cases heq
  · next heq => cases heq
  · next heq => cases heq
  · exact h.elim

private theorem Phase.Copies.exec {ψ : Phase} {request : apiserver.Request Body}
    {a : apiserver.Answer request}
    (h : ψ.Copies st.cluster) (hexec : Exec (fun _ => False) st.cluster request a s) :
    ψ.Copies s := by
  cases ψ with
  | quiet => trivial
  | read name secret =>
    have hpast : Past st.cluster .secret name secret := h
    exact hpast.exec hexec
  | drew name secret suffix =>
    have hpast : Past st.cluster .secret name secret := h
    exact hpast.exec hexec
  | ready name secret suffix bytes =>
    have hpast : Past st.cluster .secret name secret := h
    exact hpast.exec hexec

/-- A call reads a Secret. -/
theorem Inv.readSecret (h : Inv pool st φ) {i : Nat} {name : GoString}
    {a : apiserver.Answer (B := Body) (.get Kind.secret name)}
    (hexec : Exec (fun _ => False) st.cluster (.get .secret name) a s) :
    Inv pool { st with cluster := s }
      (Function.update φ i (next (φ i) (.api (.get .secret name)) a)) := by
  obtain ⟨rfl, hread⟩ := hexec.get
  cases a with
  | ok secret =>
    have hnext : next (φ i) (.api (.get .secret name)) (.ok secret) = .read name secret := by
      cases φ i <;> rfl
    rw [hnext]
    exact h.move (Past.of_lookup (hread secret rfl)) (.inl rfl) (.inl rfl)
  | error e =>
    have hnext : next (φ i) (.api (.get .secret name)) (.error e) = .quiet := by
      cases φ i <;> rfl
    rw [hnext]
    exact h.move trivial (.inl rfl) (.inl rfl)

/-- A request that is not about a Secret leaves the keys alone. -/
theorem Inv.other (h : Inv pool st φ) {request : apiserver.Request Body}
    {a : apiserver.Answer request} (hexec : Exec (fun _ => False) st.cluster request a s)
    (htarget : ∀ name, request.target ≠ some (.secret, name)) :
    Inv pool { st with cluster := s } φ := by
  refine h.shrink (fun i => (h.copies i).exec hexec) (fun name secret hsecret => ?_)
  rw [hexec.frame (htarget name)] at hsecret
  exact ⟨secret, hsecret, rfl, fun _ _ hid => hid⟩

/-- A call writes the Secret it read, with one key less or one key of its own draws more. -/
theorem Inv.writeSecret (h : Inv pool st φ) {i : Nat} {name : GoString}
    {secret object : Object (Body .secret)}
    {a : apiserver.Answer (B := Body) (.update Kind.secret name object)}
    (hexec : Exec (fun _ => False) st.cluster (.update .secret name object) a s)
    (hpast : Past st.cluster .secret name secret) (hmetadata : object.metadata = secret.metadata)
    (hdata : (∃ id, object.body.data = secret.body.data.erase id) ∨
      ∃ suffix bytes idPrefix, φ i = .ready name secret suffix bytes ∧
        object.body.data = secret.body.data.insert (idPrefix ++ hexEncode suffix)
          (apiKeyText bytes)) :
    Inv pool { st with cluster := s } (Function.update φ i .quiet) := by
  have hcopies (j : Nat) := (h.copies j).exec hexec
  have hother (other : GoString)
      (hne : other ≠ name) : s.lookup .secret other = st.cluster.lookup .secret other :=
    hexec.frame (fun heq => hne (by simpa [apiserver.Request.target] using heq.symm))
  have hquiet {st' : State} (h' : Inv pool st' φ) : Inv pool st' (Function.update φ i .quiet) :=
    h'.move trivial (.inl rfl) (.inl rfl)
  rcases hexec.update with hsame | hnone | ⟨existing, hexisting, hversion, hstored⟩
  · refine hquiet (h.shrink hcopies
      (fun name' found hfound => ⟨found, ?_, rfl, fun _ _ hid => hid⟩))
    by_cases hname : name' = name
    · subst name'
      rwa [← hsame]
    · rwa [← hother name' hname]
  · refine hquiet (h.shrink hcopies
      (fun name' found hfound => ⟨found, ?_, rfl, fun _ _ hid => hid⟩))
    by_cases hname : name' = name
    · subst name'
      rw [hnone] at hfound
      cases hfound
    · rwa [← hother name' hname]
  -- the version is the one that was read, so the stored Secret is the copy
  obtain rfl : existing = secret := hpast.2 existing hexisting (by rw [← hversion, hmetadata])
  have hlabels : object.metadata.labels = existing.metadata.labels := by rw [hmetadata]
  rcases hdata with ⟨id, hdata⟩ | ⟨suffix, bytes, idPrefix, hi, hdata⟩
  · refine hquiet (h.shrink hcopies (fun name' found hfound => ?_))
    by_cases hname : name' = name
    · subst name'
      rw [hstored, Option.some.injEq] at hfound
      subst found
      refine ⟨existing, hexisting, hlabels, fun key value hkey => ?_⟩
      change object.body.data.lookup key = some value at hkey
      rw [hdata, GoMap.lookup_erase_eq] at hkey
      split_ifs at hkey
      exact hkey
    · rw [hother name' hname] at hfound
      exact ⟨found, hfound, rfl, fun _ _ hid => hid⟩
  · exact h.store hi hcopies hexisting hother hstored hlabels hdata

/-- Every environment step, call and answer keeps the fleet's invariant. -/
theorem keeps (init : State → Prop) (hinit : ∀ st, init st → Inv pool st (fun _ => .quiet)) :
    protocol.Keeps (machine m) init .quiet (fun _ _ => True) (Inv pool) where
  init := hinit
  start i st φ p st' hinv hidle hstart := by
    obtain ⟨rfl, modelName, operation, rfl⟩ := hstart
    exact Protocol.starts_idle hidle hinv (follows_program (I := fun _ => True)
      (fun creator description φ _ => follows_createKeyOnce creator description φ)
      (fun clientID φ _ => follows_revokeKeyOnce clientID φ) operation trivial)
  exec i st φ q a st' hinv hallowed hexec := by
    change Respond st q a st' at hexec
    cases hexec with
    | rand bytes hfresh =>
      change allowed (φ i) _ at hallowed
      match hi : φ i with
      | .quiet => simp only [hi, allowed] at hallowed
      | .read name secret =>
        rw [hi] at hallowed
        simpa only [protocol, next] using hinv.drawSuffix hi hfresh (bytes.2.1.trans hallowed)
      | .drew name secret suffix =>
        rw [hi] at hallowed
        simpa only [protocol, next] using hinv.drawBytes hi hfresh (bytes.2.1.trans hallowed)
      | .ready name secret suffix drawn => simp only [hi, allowed] at hallowed
    | @randFailed n accept e =>
      have hnext : next (φ i) (.rand n accept) (.error e) = .quiet := by
        cases φ i <;> rfl
      simp only [protocol, hnext]
      exact hinv.move trivial (.inl rfl) (.inl rfl)
    | now seconds =>
      have hnext : next (φ i) .now seconds = φ i := by
        cases φ i <;> rfl
      simpa only [protocol, hnext, Function.update_eq_self] using hinv
    | @api request a s hexec =>
      rcases allowed_api hallowed with ⟨name, rfl⟩ | ⟨name, rfl⟩ | ⟨name, object, rfl⟩ |
        ⟨name, secret, object, id, hi, rfl, hmetadata, hdata⟩ |
        ⟨name, secret, suffix, bytes, object, idPrefix, hi, rfl, hmetadata, hdata⟩
      · exact hinv.readSecret hexec
      · have hnext : next (φ i) (.api (.get .configMap name)) a = φ i := by
          cases φ i <;> cases a <;> rfl
        simp only [protocol, hnext, Function.update_eq_self]
        exact hinv.other hexec (by simp [apiserver.Request.target])
      · have hnext : next (φ i) (.api (.update .configMap name object)) a = .quiet := by
          cases φ i <;> cases a <;> rfl
        simp only [protocol, hnext]
        exact (hinv.other hexec (by simp [apiserver.Request.target])).move trivial (.inl rfl)
          (.inl rfl)
      · have hnext : next (φ i) (.api (.update .secret name object)) a = .quiet := by
          rw [hi]
          cases a <;> rfl
        have hpast := hinv.copies i
        rw [hi] at hpast
        simp only [protocol, hnext]
        exact hinv.writeSecret hexec hpast hmetadata (.inl ⟨id, hdata⟩)
      · have hnext : next (φ i) (.api (.update .secret name object)) a = .quiet := by
          rw [hi]
          cases a <;> rfl
        have hpast := hinv.copies i
        rw [hi] at hpast
        simp only [protocol, hnext]
        exact hinv.writeSecret hexec hpast hmetadata (.inr ⟨suffix, bytes, idPrefix, hi, hdata⟩)
  finish i st φ r st' hinv _ hfinish := by
    obtain rfl : st' = st := hfinish
    exact hinv.move trivial (.inl rfl) (.inl rfl)
  env st φ st' _ henv := henv.elim

def runner (m : Manager) :
    Machine.Runner State Request Answer Outcome Nat (Choice (GoString × Operation)) where
  start
    | .call (modelName, operation), _, st => some (operation.program m modelName, st)
    | _, _, _ => none
  answer
    | .reply, _, st, .api request =>
        some ((st.cluster.handle request).1, { st with cluster := (st.cluster.handle request).2 })
    | .bytes drawn, _, st, .rand n accept =>
      if h : (drawn.length = n ∧ accept drawn = true) ∧ drawn ∉ st.drawn then
        some (.ok ⟨drawn, h.1⟩, { st with drawn := drawn :: st.drawn })
      else none
    | .seconds now, _, st, .now => some (now, st)
    | _, _, _, _ => none
  finish _ st _ := some st
  env _ _ := none

/-- A schedule that is run step by step is a run of the fleet. -/
theorem runner_sound (m : Manager) : (runner m).Sound (machine m) where
  start o i st p st' h := by
    cases o with
    | call c =>
      obtain ⟨rfl, rfl⟩ := Prod.mk.inj (Option.some.inj h)
      exact ⟨rfl, c.1, c.2, rfl⟩
    | reply => cases h
    | bytes drawn => cases h
    | seconds now => cases h
  answer o i st q a st' h := by
    unfold runner at h
    simp only at h
    split at h
    · obtain ⟨rfl, rfl⟩ := Prod.mk.inj (Option.some.inj h)
      exact .api (.reply _)
    · split_ifs at h with hdrawn
      obtain ⟨rfl, rfl⟩ := Prod.mk.inj (Option.some.inj h)
      exact .rand _ hdrawn.2
    · obtain ⟨rfl, rfl⟩ := Prod.mk.inj (Option.some.inj h)
      exact .now _
    · cases h
  finish i st r st' h := (Option.some.inj h).symm
  env o st st' h := by cases h

end secrets.fleet
