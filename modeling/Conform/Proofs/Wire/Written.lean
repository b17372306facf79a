import Conform.Proofs.Wire.Node

/-!
A node is written as its tag and its fields. What the fields are is said once for every kind of
node, and it is from this list that the node is decoded again.
-/

namespace Conform

namespace Ast

open Wire (Written NodeParts NodeKind)

/-- The kind of a node, as it is decoded. -/
def kind : Ast → NodeKind
  | nominal _ _ => .nominal
  | any _ => .any
  | constrained _ _ => .constrained
  | converted _ _ => .converted
  | sum _ _ _ => .sum
  | defaulted _ _ => .defaulted
  | enum _ _ => .enum
  | array _ _ => .array
  | map _ _ _ => .map
  | schema _ => .schema
  | safe _ => .safe
  | lax _ => .lax
  | maybe _ => .maybe
  | named _ _ => .named

/-- Metadata as the last field, where there are any. -/
def writtenInfo (info : Metadata) : List (Written NodeParts) :=
  if info.isEmpty then [] else [⟨"meta", info.tokens, fun known => { known with info }⟩]

def writtenFirst (name : String) (type : Ast) : Written NodeParts :=
  ⟨name, type.tokens, fun known => { known with first := some type }⟩

def writtenSecond (name : String) (type : Ast) : Written NodeParts :=
  ⟨name, type.tokens, fun known => { known with second := some type }⟩

/-- The fields of a node in the order in which they are written. -/
def written : Ast → List (Written NodeParts)
  | nominal p info =>
    ⟨"primitive", [.text p.wireName], fun known => { known with primitive := some p }⟩ ::
      writtenInfo info
  | any info => writtenInfo info
  | constrained type rule =>
    [writtenFirst "type" type,
     ⟨"rule", rule.tokens, fun known => { known with rule := some rule }⟩]
  | converted type functions =>
    [writtenFirst "type" type,
     ⟨"functions", .array functions.length :: functions.map .text,
       fun known => { known with functions := some functions }⟩]
  | sum left right info =>
    writtenFirst "left" left :: writtenSecond "right" right :: writtenInfo info
  | defaulted type value =>
    [writtenFirst "type" type,
     ⟨"value", value.tokens, fun known => { known with fallback := some value }⟩]
  | enum type values =>
    [writtenFirst "type" type,
     ⟨"values", .array values.length :: Value.itemTokens values,
       fun known => { known with values := some values }⟩]
  | array member info => writtenFirst "member" member :: writtenInfo info
  | map key value info =>
    writtenFirst "key" key :: writtenSecond "value" value :: writtenInfo info
  | schema s =>
    ⟨"keys", .array s.keys.length :: keyTokens s.keys,
      fun known => { known with keys := some s.keys }⟩ ::
    ⟨"strict", [.bool s.strict], fun known => { known with strict := some s.strict }⟩ ::
    ⟨"always_resolve_defaults", [.bool s.alwaysDefaults],
      fun known => { known with alwaysDefaults := s.alwaysDefaults }⟩ ::
    ⟨"transform", s.transform.tokens, fun known => { known with transform := s.transform }⟩ ::
      writtenInfo s.info
  | safe type | lax type | maybe type => [writtenFirst "type" type]
  | named identifier info =>
    ⟨"identifier", [.text identifier], fun known => { known with identifier := some identifier }⟩ ::
      writtenInfo info

theorem tag_kind (a : Ast) : (a.tag, .unit a.kind) ∈ Wire.nodeKinds := by
  cases a <;> simp [tag, kind, Wire.nodeKinds]

theorem infoField_eq (info : Metadata) :
    Wire.infoField info = (writtenInfo info).flatMap Written.tokens := by
  unfold Wire.infoField writtenInfo
  split
  next => rfl
  next => simp [Written.tokens]

theorem payloadHead_eq (fields : Nat) (info : Metadata) :
    Wire.payloadHead fields info = .map ((writtenInfo info).length + fields) := by
  unfold Wire.payloadHead writtenInfo
  split
  next => rw [List.length_nil, Nat.zero_add]
  next => rw [List.length_singleton, Nat.add_comm]

/-- A node is written as its tag and its fields. -/
theorem tokens_eq_node (a : Ast) : a.tokens =
    Wire.node a.tag (.map a.written.length :: a.written.flatMap Written.tokens) := by
  cases a <;>
    simp [tokens, tag, written, writtenFirst, writtenSecond, Written.tokens, infoField_eq,
      payloadHead_eq]

theorem tokens_ne_nil (a : Ast) : a.tokens ≠ [] := by
  simp [tokens_eq_node, Wire.node]

theorem names_writtenInfo (info : Metadata) :
    ((writtenInfo info).map Written.name).Sublist ["meta"] := by
  unfold writtenInfo
  split
  next => exact List.nil_sublist _
  next => exact List.Sublist.refl _

/-- No field is written twice. -/
theorem written_nodup (a : Ast) : (a.written.map Written.name).Nodup := by
  have hinfo : ∀ info, ∀ name, name ≠ "meta" → name ∉ (writtenInfo info).map Written.name := by
    intro info name hname hmem
    exact hname (List.mem_singleton.mp ((names_writtenInfo info).subset hmem))
  have hnodup : ∀ info, ((writtenInfo info).map Written.name).Nodup := fun info =>
    (List.nodup_cons.mpr ⟨List.not_mem_nil, List.nodup_nil⟩).sublist (names_writtenInfo info)
  cases a <;> simp [written, writtenFirst, writtenSecond, hnodup, hinfo, -List.mem_map]

/-- What is known after metadata have been read, where none were known before. -/
theorem foldl_writtenInfo {known : NodeParts} (h : known.info = {}) (info : Metadata) :
    (writtenInfo info).foldl (fun known w => w.update known) known = { known with info } := by
  unfold writtenInfo
  split
  next hempty =>
    rw [Metadata.eq_empty hempty, ← h]
    rfl
  next => rfl

/-- A node is made again of its fields. -/
theorem build_written (a : Ast) :
    a.kind.build (a.written.foldl (fun known w => w.update known) {}) = some a := by
  cases a <;>
    simp [kind, written, writtenFirst, writtenSecond, foldl_writtenInfo, NodeKind.build]

/-- The tokens of one key of a schema. -/
def oneKeyTokens (k : Key Ast) : List Wire.Token :=
  .map 3 :: .text "name" :: k.name.tokens ++ .text "required" :: .bool k.required ::
    .text "type" :: k.type.tokens

theorem keyTokens_eq_flatMap (keys : List (Key Ast)) :
    keyTokens keys = keys.flatMap oneKeyTokens := by
  induction keys with
  | nil => rfl
  | cons k ks ih => simp [keyTokens, ih, oneKeyTokens]

end Ast

end Conform
