import Conform.Proofs.Ty.Depth

namespace Conform

/-- A call comes to an end wherever the trial does. -/
def Follows (attempt : Value → Run Outcome) (call : Value → Run (Result Value)) : Prop :=
  ∀ input o, attempt input = .ok o → ∃ r, call input = .ok r

namespace Schema

section

variable {attempt : Ty → Value → Run Outcome} {call : Ty → Value → Run (Result Value)}

theorem coerceKeys_ends (h : ∀ ty, Follows (attempt ty) (call ty)) {supply : Key Ty → Supply}
    {keys : List (Key Ty)} {results : List (Value × Outcome)}
    (hr : attemptKeys attempt supply keys = .ok results) (output : Entries) :
    ∃ r, coerceKeys call supply keys output = .ok r := by
  induction keys generalizing results output with
  | nil => exact ⟨.ok output, rfl⟩
  | cons k ks ih =>
    unfold attemptKeys at hr
    unfold coerceKeys
    cases hk : supply k with
    | omitted =>
      have hrest : attemptKeys attempt supply ks = .ok results := by simpa only [hk] using hr
      exact ih hrest output
    | missing => exact ⟨_, rfl⟩
    | value v =>
      simp only [hk, bind_eq_ok] at hr ⊢
      obtain ⟨o, ho, rest, hrest, -⟩ := hr
      obtain ⟨w, hw⟩ := h k.type v o ho
      cases w with
      | error e => exact ⟨_, .error e, hw, rfl⟩
      | ok w =>
        obtain ⟨r, hr⟩ := ih hrest (keep output k.name w)
        exact ⟨r, .ok w, hw, hr⟩

theorem coerce_ends (h : ∀ ty, Follows (attempt ty) (call ty)) (order : Iteration)
    (s : Schema Ty Func) (options : ApplyOptions) :
    Follows (s.attempt order attempt options) (s.coerce order call options) := by
  intro input o ho
  unfold Schema.attempt at ho
  unfold Schema.coerce
  split at ho
  next entries =>
    cases hp : s.present entries with
    | error e => exact ⟨_, rfl⟩
    | ok present =>
      simp only [hp, bind_eq_ok] at ho
      obtain ⟨results, hr, -⟩ := ho
      obtain ⟨r, hkeys⟩ := coerceKeys_ends h hr []
      simp only [hkeys]
      split
      next => exact ⟨_, rfl⟩
      next => exact ⟨_, rfl⟩
  next => exact ⟨_, rfl⟩

end

end Schema

namespace Ty

theorem coerceItems_ends {attempt : Value → Run Outcome} {call : Value → Run (Result Value)}
    (h : Follows attempt call) {items : List Value} {outcomes : List Outcome}
    (hos : List.Forall₂ (fun item o => attempt item = .ok o) items outcomes) (index : Nat) :
    ∃ r, coerceItems call index items = .ok r := by
  induction hos generalizing index with
  | nil => exact ⟨.ok [], rfl⟩
  | @cons item o items outcomes ho _ ih =>
    unfold coerceItems
    obtain ⟨w, hw⟩ := h item o ho
    obtain ⟨r, hr⟩ := ih (index + 1)
    cases w with
    | error e => simp only [hw, ok_bind]; exact ⟨_, rfl⟩
    | ok v =>
      simp only [hw, hr, ok_bind]
      cases r with
      | error e => exact ⟨_, rfl⟩
      | ok vs => exact ⟨_, rfl⟩

theorem coerceEntries_ends {tryKey tryValue : Value → Run Outcome}
    {key value : Value → Run (Result Value)} (hk : Follows tryKey key) (hv : Follows tryValue value)
    {entries : Entries} {outcomes : List (Value × Outcome × Outcome)}
    (hos : List.Forall₂ (fun e o => attemptEntry tryKey tryValue e = .ok o) entries outcomes)
    (output : Entries) : ∃ r, coerceEntries key value entries output = .ok r := by
  induction hos generalizing output with
  | nil => exact ⟨.ok output, rfl⟩
  | @cons e o entries outcomes ho _ ih =>
    obtain ⟨ko, vo, hko, hvo, rfl⟩ := attemptEntry_eq_ok.mp ho
    unfold coerceEntries
    obtain ⟨k, hkr⟩ := hk e.1 ko hko
    obtain ⟨v, hvr⟩ := hv e.2 vo hvo
    cases k with
    | error f => simp only [hkr, ok_bind]; exact ⟨_, rfl⟩
    | ok k =>
      cases v with
      | error f => simp only [hkr, hvr, ok_bind]; exact ⟨_, rfl⟩
      | ok v =>
        simp only [hkr, hvr, ok_bind]
        exact ih (output.insert k v)

end Ty

end Conform
