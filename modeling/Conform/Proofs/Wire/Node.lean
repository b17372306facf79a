import Conform.Proofs.Wire.Rule
import Conform.Wire.Ast

namespace Conform

namespace Wire

theorem primitive_decodes (r : Reading) (p : Primitive) :
    Decodes (primitive r) [.text p.wireName] p := by
  have hnames : ((Primitive.all.map fun p => (p.wireName, Variant.unit p)).map Prod.fst).Nodup := by
    decide
  exact variant_unit_decodes hnames (List.mem_map.mpr ⟨p, p.mem_all, rfl⟩)

theorem names_decodes (level : Nat) (names : List String) :
    Decodes (items (.direct (level + 1)) fun _ => text) (.array names.length :: names.map .text)
      names := by
  have hnames : ∀ name ∈ names, Decodes text [.text name] name := fun name _ => text_decodes name
  rw [List.map_eq_flatMap]
  exact items_decodes hnames

theorem transform_decodes (r : Reading) (t : KeyTransform String) :
    Decodes (transform r) t.tokens t := by
  cases t with
  | identity | symbolize | stringify => exact variant_unit_decodes (by simp) (by simp)
  | custom handle =>
    exact variant_data_decodes (by simp) (by simp) ((text_decodes handle).map KeyTransform.custom)

end Wire

namespace Fallback

/-- How deep collections are nested in a written fallback. -/
def levels : Fallback String → Nat
  | literal v => v.levels
  | callable _ => 0

def Proper : Fallback String → Prop
  | literal v => v.Proper
  | callable _ => True

end Fallback

namespace Wire

theorem fallback_decodes {f : Fallback String} (hp : f.Proper) {level : Nat}
    (hl : f.levels ≤ level) : Decodes (fallback (.direct level)) f.tokens f := by
  cases f with
  | literal v =>
    exact variant_data_decodes (by simp) (by simp) ((value_decodes hp hl).map Fallback.literal)
  | callable handle =>
    exact variant_data_decodes (by simp) (by simp) ((text_decodes handle).map Fallback.callable)

theorem seek_name (r : Reading) {names : List String} {name : String} {i : Nat}
    (h : names.idxOf? name = some i) (left : Nat) (ts : List Token) :
    seek r names (left + 1) (.text name :: ts) = some (some (i, left), ts) := by
  rw [seek, label_text, h]
  rfl

/-- A node is decoded where its fields are. -/
theorem node_decodes {ast : Reading → Decoder Ast} {level : Nat} {name : String} {kind : NodeKind}
    (hk : (name, .unit kind) ∈ nodeKinds) {data : List Token} {a : Ast}
    (hd : Decodes (kind.payload ast (.direct level)) data a) :
    Decodes (nodeOf ast (.direct (level + 1))) (node name data) a := by
  have hkinds : (nodeKinds.map Prod.fst).Nodup := by simp [nodeKinds]
  have htag : nodeFields.idxOf? "tag" = some 0 := by decide
  have hpayload : nodeFields.idxOf? "payload" = some 1 := by decide
  intro rest
  have hkind : variant (.direct level) nodeKinds (.text name :: .text "payload" :: (data ++ rest)) =
      some (kind, .text "payload" :: (data ++ rest)) :=
    variant_unit_decodes hkinds hk _
  simp only [node, List.cons_append, nodeOf, Reading.enter, nodeOfMap, seek_name _ htag, hkind,
    seek_name _ hpayload, hd rest, Option.bind_eq_bind, Option.bind_some]
  rfl

end Wire

end Conform
