import ServingPack.Console.Tokens

open golang concurrency

namespace openmeter

section Pure

variable (s : Server) (om : (q : Request) → Answer q) (p : Pricer)

/-- The price of a normalised provider and model: an override in effect, or what
the price book has in effect. -/
def bookPrice (k : GoString × GoString) : Option Price :=
  match inEffect p.now p.overrides k.1 k.2 with
  | some pr => some pr
  | none =>
    match om (.prices k.1 k.2) with
    | .ok rows => inEffect p.now rows k.1 k.2
    | .error _ => none

/-- The price that the pricer remembers, or finds. -/
def priceOf (provider model : GoString) : Option Price :=
  if provider = [] then none
  else (p.cache (s.normalizeModelID provider model)).getD
    (bookPrice om p (s.normalizeModelID provider model))

def costOf (resource model : GoString) (tokens : GoMap Int) : Option Rat :=
  (priceOf s om p ((p.providers.lookup resource).getD []) model).bind
    (fun pr => total s pr (counts tokens))

/-- A receipt with the counts of its tokens and, for a served request, their cost. -/
def receiptOf (r : Receipt) (t : GoMap Int) : Receipt :=
  if r.verdict = .allowed then
    { withTokens r t with costUSD := (costOf s om p r.backend r.resolvedModel t).map s.roundUSD }
  else withTokens r t

end Pure

section Pricer

variable {s : Server} {om : (q : Request) → Answer q} {p p' : Pricer}
  {cached cached' : Option Pricer}

/-- Pricers that price alike. -/
structure Alike (s : Server) (om : (q : Request) → Answer q) (p p' : Pricer) : Prop where
  providers : p'.providers = p.providers
  prices : ∀ provider model, priceOf s om p' provider model = priceOf s om p provider model

private theorem Alike.refl (p : Pricer) : Alike s om p p := ⟨rfl, fun _ _ => rfl⟩

private theorem Alike.receiptOf (h : Alike s om p p') (r : Receipt) (t : GoMap Int) :
    openmeter.receiptOf s om p' r t = openmeter.receiptOf s om p r t := by
  unfold openmeter.receiptOf costOf
  rw [h.providers, h.prices]

/-- A pricer that remembers the price it would find prices alike. -/
theorem alike_update {k : GoString × GoString} {pr : Option Price} (hpr : ∀ provider model,
    provider ≠ [] → s.normalizeModelID provider model = k → priceOf s om p provider model = pr) :
    Alike s om p { p with cache := Function.update p.cache k (some pr) } := by
  refine ⟨rfl, fun provider model => ?_⟩
  by_cases hprovider : provider = []
  · rw [priceOf, priceOf, if_pos hprovider, if_pos hprovider]
  · by_cases hkey : s.normalizeModelID provider model = k
    · rw [hpr provider model hprovider hkey, priceOf, if_neg hprovider]
      simp only [hkey, Function.update_self, Option.getD_some]
    · rw [priceOf, priceOf, if_neg hprovider, if_neg hprovider]
      simp only [Function.update_of_ne hkey]
      rfl

private theorem eval_price {provider model : GoString} {pr : Option Price}
    (h : ServerM.eval om (price s p provider model) cached = (.ok (pr, p'), cached')) :
    pr = priceOf s om p provider model ∧ Alike s om p p' := by
  unfold price at h
  rw [priceOf]
  by_cases hprovider : provider = []
  · rw [if_pos hprovider] at h ⊢
    obtain ⟨hok, _⟩ := Prod.mk.inj h
    obtain ⟨rfl, rfl⟩ := Prod.mk.inj (Except.ok.inj hok)
    exact ⟨rfl, .refl p⟩
  rw [if_neg hprovider] at h ⊢
  simp only at h
  cases hcache : p.cache (s.normalizeModelID provider model) with
  | some known =>
    rw [hcache] at h
    obtain ⟨hok, _⟩ := Prod.mk.inj h
    obtain ⟨rfl, rfl⟩ := Prod.mk.inj (Except.ok.inj hok)
    exact ⟨rfl, .refl p⟩
  | none =>
    rw [hcache] at h
    simp only at h
    rw [Option.getD_none]
    -- the pricer remembers what it finds, under the normalised name
    have hfresh (hfound : bookPrice om p (s.normalizeModelID provider model) = pr)
        (hnext : { p with cache := Function.update p.cache (s.normalizeModelID provider model) (some pr) } = p') :
        Alike s om p p' := by
      rw [← hnext]
      apply alike_update
      intro provider' model' hprovider' hkey
      rw [priceOf, if_neg hprovider', hkey, hcache, Option.getD_none, hfound]
    cases hoverride : inEffect p.now p.overrides (s.normalizeModelID provider model).1
        (s.normalizeModelID provider model).2 with
    | some found =>
      have hbook : bookPrice om p (s.normalizeModelID provider model) = some found := by
        rw [bookPrice, hoverride]
      rw [hoverride] at h
      obtain ⟨hok, _⟩ := Prod.mk.inj h
      obtain ⟨hpr, hnext⟩ := Prod.mk.inj (Except.ok.inj hok)
      rw [hpr] at hbook hnext
      exact ⟨hbook.symm, hfresh hbook hnext⟩
    | none =>
      rw [hoverride] at h
      obtain ⟨rows, _, hrows, hpure⟩ := ServerM.eval_bind_ok h
      rw [ServerM.eval_lift] at hrows
      have hanswer : om (.prices (s.normalizeModelID provider model).1
          (s.normalizeModelID provider model).2) = .ok rows :=
        (Prod.mk.inj hrows).1
      have hbook : bookPrice om p (s.normalizeModelID provider model) =
          inEffect p.now rows (s.normalizeModelID provider model).1
            (s.normalizeModelID provider model).2 := by
        rw [bookPrice, hoverride]
        simp only [hanswer]
      obtain ⟨hok, _⟩ := Prod.mk.inj hpure
      obtain ⟨hpr, hnext⟩ := Prod.mk.inj (Except.ok.inj hok)
      rw [hpr] at hbook hnext
      exact ⟨hbook.symm, hfresh hbook hnext⟩

private theorem eval_cost {resource model : GoString} {tokens : GoMap Int} {costUSD : Option Rat}
    (h : ServerM.eval om (cost s p resource model tokens) cached = (.ok (costUSD, p'), cached')) :
    costUSD = costOf s om p resource model tokens ∧ Alike s om p p' := by
  obtain ⟨⟨pr, p''⟩, _, hprice, hpure⟩ := ServerM.eval_bind_ok h
  obtain ⟨hok, _⟩ := Prod.mk.inj hpure
  obtain ⟨rfl, rfl⟩ := Prod.mk.inj (Except.ok.inj hok)
  obtain ⟨rfl, halike⟩ := eval_price hprice
  exact ⟨rfl, halike⟩

/-- Each receipt is completed by itself: the pricer of one prices like that of the next. -/
theorem completeReceipts_eq {tokens : GoMap (GoMap Int)} {rs done : List Receipt}
    (h : ServerM.eval om (completeReceipts s tokens p rs) cached = (.ok done, cached')) :
    done = rs.map (fun r => receiptOf s om p r ((tokens.lookup r.id).getD ∅)) := by
  induction rs generalizing p cached cached' done with
  | nil => exact (Except.ok.inj (Prod.mk.inj h).1).symm
  | cons r rest ih =>
    unfold completeReceipts at h
    rw [List.map_cons]
    split_ifs at h with hallowed
    · obtain ⟨⟨costUSD, p'⟩, _, hcost, h⟩ := ServerM.eval_bind_ok h
      obtain ⟨tail, _, htail, hpure⟩ := ServerM.eval_bind_ok h
      obtain ⟨rfl, halike⟩ := eval_cost hcost
      rw [← Except.ok.inj (Prod.mk.inj hpure).1, ih htail]
      refine congrArg₂ List.cons ?_ (List.map_congr_left fun r' _ => halike.receiptOf r' _)
      rw [receiptOf, if_pos hallowed]
    · obtain ⟨tail, _, htail, hpure⟩ := ServerM.eval_bind_ok h
      rw [← Except.ok.inj (Prod.mk.inj hpure).1, ih htail, receiptOf, if_neg hallowed]

/-- The pricer that a server with this cache uses. -/
def pricerOf (s : Server) (om : (q : Request) → Answer q) (cached : Option Pricer) :
    Except Failure Pricer :=
  (ServerM.eval om (pricer s) cached).1

/-- Completed receipts have the counts that were looked up, and the cost that the pricer finds. -/
theorem complete_eq {rs done : List Receipt}
    (h : ServerM.eval om (complete s rs) cached = (.ok done, cached')) :
    ∃ tokens p, answer om (tokensOf rs) = .ok tokens ∧ pricerOf s om cached = .ok p ∧
      done = rs.map (fun r => receiptOf s om p r ((tokens.lookup r.id).getD ∅)) := by
  obtain ⟨tokens, _, htokens, hrest⟩ := ServerM.eval_bind_ok h
  rw [ServerM.eval_lift] at htokens
  obtain ⟨hanswer, rfl⟩ := Prod.mk.inj htokens
  obtain ⟨p, _, hp, hdone⟩ := ServerM.eval_bind_ok hrest
  refine ⟨tokens, p, hanswer, ?_, completeReceipts_eq hdone⟩
  rw [pricerOf, hp]

end Pricer

end openmeter
