import Conform.Proofs.Wire.Value
import Conform.Wire.Rule

namespace Conform

namespace Rule

/-- How deep collections are nested in a written rule. -/
def levels : Rule → Nat
  | predicate p => 2 + Value.itemLevels p.args
  | and left right | or left right => 1 + max left.levels right.levels

def Proper (rule : Rule) : Prop :=
  ∀ p ∈ rule.predicates, ∀ v ∈ p.args, v.Proper

theorem tokens_ne_nil (rule : Rule) : rule.tokens ≠ [] := by
  cases rule <;> simp [tokens, Wire.tagged]

end Rule

namespace Wire

theorem valueItems_decodes {items : List Value} (hp : ∀ v ∈ items, v.Proper) {level : Nat}
    (hl : 1 + Value.itemLevels items ≤ level) :
    Decodes (Wire.items (.direct level) value) (.array items.length :: Value.itemTokens items)
      items := by
  obtain ⟨level, rfl⟩ : ∃ n, level = n + 1 := ⟨level - 1, by omega⟩
  have hitems : ∀ v ∈ items, Decodes (value (.direct level)) v.tokens v := by
    intro v hv
    have hlevels := Value.levels_le_itemLevels hv
    exact value_decodes (hp v hv) (by omega)
  rw [Value.itemTokens_eq_flatMap]
  exact items_decodes hitems

/-- The fields of a written predicate. -/
def writtenPredicate (p : Predicate) : List (Written PredicateParts) :=
  [⟨"name", [.text p.name], fun known => { known with name := some p.name }⟩,
   ⟨"args", .array p.args.length :: Value.itemTokens p.args,
     fun known => { known with args := some p.args }⟩]

theorem predicate_decodes {p : Predicate} (hp : ∀ v ∈ p.args, v.Proper) {level : Nat}
    (hl : 2 + Value.itemLevels p.args ≤ level) :
    Decodes (predicate (.direct level)) p.tokens p := by
  obtain ⟨level, rfl⟩ : ∃ n, level = n + 1 := ⟨level - 1, by omega⟩
  have hnames : ((predicateFields (.direct level)).map Prod.fst).Nodup := by
    simp [predicateFields]
  have hargs : Decodes (items (.direct level) value)
      (.array p.args.length :: Value.itemTokens p.args) p.args :=
    valueItems_decodes hp (by omega)
  have hfits : ∀ w ∈ writtenPredicate p, w.Fits (predicateFields (.direct level)) := by
    intro w hw
    simp only [writtenPredicate, List.mem_cons, List.not_mem_nil, or_false] at hw
    rcases hw with rfl | rfl
    · exact ⟨_, List.mem_cons_self, fun _ => (text_decodes p.name).map _⟩
    · exact ⟨_, List.mem_cons_of_mem _ List.mem_cons_self, fun _ => hargs.map _⟩
  have hrecord := record_written predicateFields hnames (by simp [writtenPredicate]) hfits {}
  have htokens : p.tokens =
      .map (writtenPredicate p).length :: (writtenPredicate p).flatMap Written.tokens := by
    simp [Predicate.tokens, writtenPredicate, Written.tokens]
  intro rest
  rw [predicate, htokens, hrecord rest]
  rfl

theorem kind_decodes {fuel : Nat} {r : Reading} {name : String} {d : Decoder Rule}
    {data : List Token} {rule : Rule} (h : (name, .data d) ∈ ruleVariants r (ruleWithin fuel))
    (hd : Decodes d data rule) : Decodes (ruleWithin (fuel + 1) r) (tagged name data) rule := by
  have hnames : ((ruleVariants r (ruleWithin fuel)).map Prod.fst).Nodup := by
    simp [ruleVariants]
  exact variant_data_decodes hnames h hd

/-- The two parts of a rule are decoded, where each is with enough depth. -/
theorem parts_decodes {left right : Rule}
    (hleft : ∀ level fuel, left.levels ≤ level → left.tokens.length ≤ fuel + 1 →
      Decodes (ruleWithin (fuel + 1) (.direct level)) left.tokens left)
    (hright : ∀ level fuel, right.levels ≤ level → right.tokens.length ≤ fuel + 1 →
      Decodes (ruleWithin (fuel + 1) (.direct level)) right.tokens right)
    {level fuel : Nat} (hl : 1 + max left.levels right.levels ≤ level)
    (hf : 2 + left.tokens.length + right.tokens.length ≤ fuel) :
    Decodes (pair (.direct level) (ruleWithin fuel) (ruleWithin fuel))
      (.array 2 :: left.tokens ++ right.tokens) (left, right) := by
  obtain ⟨level, rfl⟩ : ∃ n, level = n + 1 := ⟨level - 1, by omega⟩
  obtain ⟨fuel, rfl⟩ : ∃ n, fuel = n + 1 := ⟨fuel - 1, by omega⟩
  exact pair_decodes (hleft level fuel (by omega) (by omega))
    (hright level fuel (by omega) (by omega))

/-- A rule is decoded from its tokens, given as much depth as they have. -/
theorem ruleWithin_decodes {rule : Rule} (hp : rule.Proper) {level fuel : Nat}
    (hl : rule.levels ≤ level) (hf : rule.tokens.length ≤ fuel + 1) :
    Decodes (ruleWithin (fuel + 1) (.direct level)) rule.tokens rule := by
  induction rule generalizing level fuel with
  | predicate p =>
    have hpredicate := predicate_decodes (hp p List.mem_cons_self) hl
    exact kind_decodes (by simp [ruleVariants]) (hpredicate.map Rule.predicate)
  | and left right ihl ihr =>
    obtain ⟨hpl, hpr⟩ := List.forall_mem_append.mp hp
    have hlength : 2 + left.tokens.length + right.tokens.length ≤ fuel := by
      simp only [Rule.tokens, tagged, List.length_cons, List.length_append] at hf
      omega
    have hpair := parts_decodes (fun _ _ => ihl hpl) (fun _ _ => ihr hpr) hl hlength
    exact kind_decodes (.tail _ (.head _)) (hpair.map _)
  | or left right ihl ihr =>
    obtain ⟨hpl, hpr⟩ := List.forall_mem_append.mp hp
    have hlength : 2 + left.tokens.length + right.tokens.length ≤ fuel := by
      simp only [Rule.tokens, tagged, List.length_cons, List.length_append] at hf
      omega
    have hpair := parts_decodes (fun _ _ => ihl hpl) (fun _ _ => ihr hpr) hl hlength
    exact kind_decodes (.tail _ (.tail _ (.head _))) (hpair.map _)

theorem rule_decodes {rule : Rule} (hp : rule.Proper) {level : Nat} (hl : rule.levels ≤ level) :
    Decodes (Wire.rule (.direct level)) rule.tokens rule :=
  decodes_of_within (fun fuel => ruleWithin fuel (.direct level)) rule.tokens_ne_nil
    fun _ hf => ruleWithin_decodes hp hl hf

end Wire

end Conform
