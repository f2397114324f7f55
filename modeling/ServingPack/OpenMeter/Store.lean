import ServingPack.OpenMeter.Bootstrap

open golang concurrency openmeterapi

namespace openmetersetup

/-- What OpenMeter keeps, and the time. -/
structure Store where
  meters : List Meter
  features : List Feature := []
  overrides : List Price := []
  clock : Int := 0

/-- All pages of some items. -/
def served {T : Type} (items : List T) : Pages T where
  pages := (List.range (items.length / pageSize + 1)).map (pageOf items (fun _ => true))
  failure := []

/-- A feature as it is kept, under an ID of OpenMeter's. -/
def NewFeature.kept (f : NewFeature) (id : GoString) : Feature where
  id := id
  key := f.key
  filters := f.filters
  unitCost := f.unitCost

/-- An OpenMeter whose calls all reach it: what it answers each one, and keeps then. -/
abbrev Service := Store → (q : Request) → Answer q × Store

/-- It lists what it keeps, keeps what it is sent, under an ID of its own, and refuses a second
feature with a key. -/
structure Service.Keeps (om : Service) : Prop where
  meters : ∀ st, om st .meters = (served st.meters, st)
  features : ∀ st, om st .features = (served st.features, st)
  overrides : ∀ st, om st .overrides = (served st.overrides, st)
  now : ∀ st, om st .now = (st.clock, st)
  created : ∀ st f, f.key ∉ st.features.map Feature.key →
    ∃ id, om st (.createFeature f) = (.ok (), { st with features := st.features ++ [f.kept id] })
  refused : ∀ st f, f.key ∈ st.features.map Feature.key →
    ∃ e, om st (.createFeature f) = (.error e, st)
  override : ∀ st p, om st (.createOverride p) =
    (.ok (), { st with overrides := st.overrides ++
      [{ provider := p.provider, model := p.model, pricing := p.pricing }] })

section Eval

variable {om : Service} {st st' : Store} {α β : Type}

private theorem listAll_served {T : Type} (items : List T) :
    listAll (served items) = .ok items := by
  have hread := (@readPages_pages T items (fun _ => true) [] (items.length / pageSize + 1) 0).2
  obtain ⟨out, hout⟩ := hread (by
    have hpos : 0 < pageSize := by decide
    have hdiv := Nat.div_add_mod items.length pageSize
    have hmod := Nat.mod_lt items.length hpos
    rw [Nat.zero_add, Nat.add_one_mul, Nat.mul_comm]
    omega) (Nat.succ_ne_zero _)
  have hlist : listAll (served items) = .ok out := by
    rw [listAll, served, List.range_eq_range', ← hout, Nat.zero_mul]
  have hlists : Lists items (served items) := ⟨fun _ => true, _, rfl⟩
  rw [hlist, hlists.listAll_eq hlist]

theorem pure_then (value : α) (f : α → Call β) : (pure value >>= f) = f value := rfl

/-- A call in two parts, where the first one succeeds. -/
theorem eval_bind_ok {x : Call α} {f : α → Call β} {value : α}
    (h : x.run.eval om st = (.ok value, st')) :
    (x >>= f).run.eval om st = (f value).run.eval om st' := by
  rw [Fallible.run_bind_eq, Program.eval_bind, h]

/-- An error ends the setup where it is. -/
theorem eval_bind_error {x : Call α} {f : α → Call β} {e : Failure}
    (h : x.run.eval om st = (.error e, st')) :
    (x >>= f).run.eval om st = (.error e, st') := by
  rw [Fallible.run_bind_eq, Program.eval_bind, h]
  rfl

theorem eval_listMeters (h : om.Keeps) : listMeters.run.eval om st = (.ok st.meters, st) := by
  show Program.eval om (om st .meters).2 (.pure (listAll (om st .meters).1)) = _
  rw [h.meters, Program.eval, listAll_served]

theorem eval_listFeatures (h : om.Keeps) : listFeatures.run.eval om st = (.ok st.features, st) := by
  show Program.eval om (om st .features).2 (.pure (listAll (om st .features).1)) = _
  rw [h.features, Program.eval, listAll_served]

theorem eval_listOverrides (h : om.Keeps) :
    listOverrides.run.eval om st = (.ok st.overrides, st) := by
  show Program.eval om (om st .overrides).2 (.pure (listAll (om st .overrides).1)) = _
  rw [h.overrides, Program.eval, listAll_served]

end Eval

end openmetersetup
