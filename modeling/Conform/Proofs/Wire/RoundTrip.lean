import Conform.Proofs.Wire.Ast
import Conform.Proofs.Wire.Shortest

namespace Conform

/-- What is decoded from tokens is decoded from their bytes, where sizes have at most 32 bits. -/
theorem Wire.decode_bytes {α : Type} {d : Reading → Decoder α} {data : List Token} {a : α}
    (hsize : ∀ t ∈ data, t.size < 2 ^ 32) (hshort : ∀ t ∈ data, t.Shortest)
    (hd : Decodes (d (.direct maxLevels)) data a) : decode d (bytes data) = some a := by
  have htokens : tokens (bytes data) = data := tokens_bytes fun t ht => ⟨hsize t ht, hshort t ht⟩
  have hdecodes := hd []
  rw [List.append_nil] at hdecodes
  rw [decode, htokens, hdecodes]
  rfl

theorem Value.ofBytes?_eq_some {v : Value} (hp : v.Proper) (hl : v.levels ≤ Wire.maxLevels)
    (hs : ∀ t ∈ v.tokens, t.size < 2 ^ 32) : ofBytes? v.toBytes = some v :=
  Wire.decode_bytes hs v.tokens_shortest (Wire.value_decodes hp hl)

theorem Rule.ofBytes?_eq_some {rule : Rule} (hp : rule.Proper)
    (hl : rule.levels ≤ Wire.maxLevels) (hs : ∀ t ∈ rule.tokens, t.size < 2 ^ 32) :
    ofBytes? rule.toBytes = some rule :=
  Wire.decode_bytes hs rule.tokens_shortest (Wire.rule_decodes hp hl)

namespace Ast

/-- A type within the limits of the format is decoded from its bytes, and is equal to what was
encoded. -/
theorem ofBytes?_toBytes {a : Ast} (hp : a.Proper) (hl : a.levels ≤ Wire.maxLevels)
    (hs : ∀ t ∈ a.tokens, t.size < 2 ^ 32) :
    ofBytes? a.toBytes = some a ∧ (a == a) = true := by
  have hdecodes : Wire.Decodes (Wire.ast (.direct Wire.maxLevels)) a.tokens a :=
    ast_decodes hp hl
  exact ⟨Wire.decode_bytes hs a.tokens_shortest hdecodes, beq_self_eq_true a⟩

/-- Readings of an instrument and their unit. -/
def readings : Ast :=
  .schema
    { keys :=
        [⟨.symbol "unit", .enum (.nominal .symbol {}) [.symbol "K", .undefined], true⟩,
         ⟨.symbol "values",
          .defaulted
            (.array (.constrained (.nominal .float {}) (.predicate ⟨"gteq", [.int (-129)]⟩)) {})
            (.literal (.hash [(.symbol "last", .float ⟨0x7ff8000000000001⟩)])), false⟩]
      info := Metadata.ofList [("ids", .array [.int 255, .int 4294967296])] }

theorem ofBytes?_readings :
    readings.Proper ∧ readings.levels ≤ Wire.maxLevels ∧
    (∀ t ∈ readings.tokens, t.size < 2 ^ 32) ∧
    ofBytes? readings.toBytes = some readings ∧ (readings == readings) = true := by
  have hp : readings.Proper := by
    simp [readings, Proper, properKeys, Fallback.Proper, Rule.Proper, Rule.predicates,
      Metadata.Proper, Metadata.ofList, Metadata.insert, Metadata.put, Value.Proper,
      Value.properItems, Value.properEntries, Entries.Distinct]
  have hl : readings.levels ≤ Wire.maxLevels := by decide
  have hs : ∀ t ∈ readings.tokens, t.size < 2 ^ 32 := by decide
  exact ⟨hp, hl, hs, ofBytes?_toBytes hp hl hs⟩

end Ast

end Conform
