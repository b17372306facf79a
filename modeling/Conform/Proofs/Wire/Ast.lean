import Conform.Proofs.Ast.Induction
import Conform.Proofs.Wire.Written

namespace Conform

namespace Ast

mutual

/-- How deep collections are nested in a written type: a node is a map that holds the map of its
fields. -/
def levels : Ast → Nat
  | nominal _ info | any info | named _ info => 2 + info.levels
  | constrained type rule => 2 + max type.levels rule.levels
  | converted type _ => 2 + max type.levels 1
  | sum left right info => 2 + max (max left.levels right.levels) info.levels
  | defaulted type value => 2 + max type.levels value.levels
  | enum type values => 2 + max type.levels (1 + Value.itemLevels values)
  | array member info => 2 + max member.levels info.levels
  | map key value info => 2 + max (max key.levels value.levels) info.levels
  | schema s => 2 + max (1 + keyLevels s.keys) s.info.levels
  | safe type | lax type | maybe type => 2 + type.levels

def keyLevels : List (Key Ast) → Nat
  | [] => 0
  | k :: ks => max (1 + max k.name.levels k.type.levels) (keyLevels ks)

end

mutual

/-- The hashes in the values of a written type have different keys. -/
def Proper : Ast → Prop
  | nominal _ info | any info | named _ info => info.Proper
  | constrained type rule => type.Proper ∧ rule.Proper
  | sum left right info => left.Proper ∧ right.Proper ∧ info.Proper
  | defaulted type value => type.Proper ∧ value.Proper
  | enum type values => type.Proper ∧ ∀ v ∈ values, v.Proper
  | array member info => member.Proper ∧ info.Proper
  | map key value info => key.Proper ∧ value.Proper ∧ info.Proper
  | schema s => properKeys s.keys ∧ s.info.Proper
  | converted type _ | safe type | lax type | maybe type => type.Proper

def properKeys : List (Key Ast) → Prop
  | [] => True
  | k :: ks => (k.name.Proper ∧ k.type.Proper) ∧ properKeys ks

end

attribute [local simp] levels keyLevels properKeys

theorem levels_le_keyLevels {keys : List (Key Ast)} {k : Key Ast} (h : k ∈ keys) :
    1 + max k.name.levels k.type.levels ≤ keyLevels keys := by
  induction keys with
  | nil => simp at h
  | cons l ls ih =>
    rw [keyLevels]
    rcases List.mem_cons.mp h with rfl | h
    · exact Nat.le_max_left _ _
    · exact Nat.le_trans (ih h) (Nat.le_max_right _ _)

theorem properKeys_iff {keys : List (Key Ast)} :
    properKeys keys ↔ ∀ k ∈ keys, k.name.Proper ∧ k.type.Proper := by
  induction keys with
  | nil => simp
  | cons k ks ih => rw [properKeys, ih, List.forall_mem_cons]

theorem two_le_levels (a : Ast) : 2 ≤ a.levels := by
  cases a <;> simp

end Ast

namespace Wire

theorem fields_nodup (ast : Reading → Decoder Ast) (r : Reading) (kind : NodeKind) :
    ((kind.fields ast r).map Prod.fst).Nodup := by
  cases kind <;> simp [NodeKind.fields, NodeKind.fields.first, NodeKind.fields.second,
    NodeKind.fields.info]

/-- A node is decoded from its fields where each of them is. -/
theorem payload_decodes {ast : Reading → Decoder Ast} {level : Nat} {a : Ast}
    (h : ∀ w ∈ a.written, w.Fits (a.kind.fields ast (.direct level))) :
    Decodes (a.kind.payload ast (.direct (level + 1)))
      (.map a.written.length :: a.written.flatMap Written.tokens) a := by
  intro rest
  have hfields := mapRecord_written (fun r => a.kind.fields ast r)
    (fields_nodup ast (.direct level) a.kind) a.written_nodup h {} rest
  simp only [NodeKind.payload, hfields, a.build_written, Option.bind_eq_bind, Option.bind_some]
  rfl

/-- The fields of a written key. -/
def writtenKey (k : Key Ast) : List (Written KeyParts) :=
  [⟨"name", k.name.tokens, fun known => { known with name := some k.name }⟩,
   ⟨"required", [.bool k.required], fun known => { known with required := some k.required }⟩,
   ⟨"type", k.type.tokens, fun known => { known with type := some k.type }⟩]

theorem key_decodes {type : Reading → Decoder Ast} {k : Key Ast} {level : Nat}
    (hp : k.name.Proper) (hl : k.name.levels ≤ level)
    (ht : Decodes (type (.direct level)) k.type.tokens k.type) :
    Decodes (key type (.direct (level + 1))) (Ast.oneKeyTokens k) k := by
  have hnames : ((keyFields type (.direct level)).map Prod.fst).Nodup := by simp [keyFields]
  have hfits : ∀ w ∈ writtenKey k, w.Fits (keyFields type (.direct level)) := by
    intro w hw
    simp only [writtenKey, List.mem_cons, List.not_mem_nil, or_false] at hw
    rcases hw with rfl | rfl | rfl
    · exact ⟨_, .head _, fun _ => (value_decodes hp hl).map _⟩
    · exact ⟨_, .tail _ (.head _), fun _ => (bool_decodes k.required).map _⟩
    · exact ⟨_, .tail _ (.tail _ (.head _)), fun _ => ht.map _⟩
  have hrecord := record_written (keyFields type) hnames (by simp [writtenKey]) hfits {}
  have htokens : Ast.oneKeyTokens k =
      .map (writtenKey k).length :: (writtenKey k).flatMap Written.tokens := by
    simp [Ast.oneKeyTokens, writtenKey, Written.tokens]
  intro rest
  rw [key, htokens, hrecord rest]
  rfl

end Wire

namespace Ast

open Wire

variable {level fuel : Nat} {fields : List (Wire.Field NodeParts)}

/-- A type is decoded wherever there is enough depth for it. -/
def Decoded (a : Ast) : Prop :=
  ∀ level fuel, a.levels ≤ level → a.tokens.length ≤ fuel →
    Decodes (astWithin fuel (.direct level)) a.tokens a

theorem length_written {a : Ast} {w : Written NodeParts} (h : w ∈ a.written) :
    w.data.length < a.tokens.length := by
  have hlength := length_le_length_flatMap Written.tokens h
  rw [Written.tokens, List.length_cons] at hlength
  simp only [a.tokens_eq_node, node, List.length_cons]
  omega

/-- It is enough that every field is decoded with the depth that is left for it. -/
theorem decoded_of_fits {a : Ast}
    (h : ∀ level fuel, a.levels ≤ level + 2 → (∀ w ∈ a.written, w.data.length ≤ fuel) →
      ∀ w ∈ a.written, w.Fits (a.kind.fields (astWithin fuel) (.direct level))) : a.Decoded := by
  intro level fuel hl hf
  have hlevels := a.two_le_levels
  have hlength := List.length_pos_iff.mpr a.tokens_ne_nil
  obtain ⟨level, rfl⟩ : ∃ n, level = n + 2 := ⟨level - 2, by omega⟩
  obtain ⟨fuel, rfl⟩ : ∃ n, fuel = n + 1 := ⟨fuel - 1, by omega⟩
  have hfuel : ∀ w ∈ a.written, w.data.length ≤ fuel := by
    intro w hw
    have hdata := length_written hw
    omega
  have hnode := node_decodes a.tag_kind (payload_decodes (h level fuel hl hfuel))
  rwa [← a.tokens_eq_node] at hnode

theorem first_fits {type : Ast} (hd : type.Decoded) (hl : type.levels ≤ level)
    (hf : type.tokens.length ≤ fuel) {name : String}
    (h : NodeKind.fields.first (astWithin fuel) (.direct level) name ∈ fields) :
    (writtenFirst name type).Fits fields :=
  ⟨_, h, fun _ => (hd level fuel hl hf).map _⟩

theorem second_fits {type : Ast} (hd : type.Decoded) (hl : type.levels ≤ level)
    (hf : type.tokens.length ≤ fuel) {name : String}
    (h : NodeKind.fields.second (astWithin fuel) (.direct level) name ∈ fields) :
    (writtenSecond name type).Fits fields :=
  ⟨_, h, fun _ => (hd level fuel hl hf).map _⟩

theorem info_fits {info : Metadata} (hp : info.Proper) (hl : info.levels ≤ level)
    (h : NodeKind.fields.info (.direct level) ∈ fields) :
    ∀ w ∈ writtenInfo info, w.Fits fields := by
  intro w hw
  unfold writtenInfo at hw
  split at hw
  next => simp at hw
  next hne =>
    obtain rfl := List.mem_singleton.mp hw
    have hempty : info.isEmpty = false := by simpa using hne
    exact ⟨_, h, fun _ => (metadata_decodes hp hempty hl).map _⟩

theorem keys_decodes {keys : List (Key Ast)} (hp : properKeys keys)
    (hd : ∀ k ∈ keys, k.type.Decoded) (hl : 1 + keyLevels keys ≤ level)
    (hf : (keyTokens keys).length ≤ fuel) :
    Decodes (items (.direct level) (Wire.key (astWithin fuel)))
      (.array keys.length :: keyTokens keys) keys := by
  rw [keyTokens_eq_flatMap] at hf ⊢
  obtain ⟨level, rfl⟩ : ∃ n, level = n + 1 := ⟨level - 1, by omega⟩
  have hkeys : ∀ k ∈ keys,
      Decodes (Wire.key (astWithin fuel) (.direct level)) (oneKeyTokens k) k := by
    intro k hk
    have hlevels := levels_le_keyLevels hk
    have hlength := length_le_length_flatMap oneKeyTokens hk
    simp only [oneKeyTokens, List.length_cons, List.length_append] at hlength
    obtain ⟨level, rfl⟩ : ∃ n, level = n + 1 := ⟨level - 1, by omega⟩
    exact key_decodes (properKeys_iff.mp hp k hk).1 (by omega)
      (hd k hk level fuel (by omega) (by omega))
  exact items_decodes hkeys

section

variable {type : Ast} {info : Metadata}

theorem decoded_nominal (p : Primitive) (hp : info.Proper) : (nominal p info).Decoded := by
  refine decoded_of_fits fun level fuel hl _ => List.forall_mem_cons.mpr ⟨?_, ?_⟩
  · exact ⟨_, .head _, fun _ => (primitive_decodes _ p).map _⟩
  · have hlevels : info.levels ≤ level := by rw [levels] at hl; omega
    exact info_fits hp hlevels (.tail _ (.head _))

theorem decoded_any (hp : info.Proper) : (any info).Decoded := by
  refine decoded_of_fits fun level fuel hl _ => ?_
  have hlevels : info.levels ≤ level := by rw [levels] at hl; omega
  exact info_fits hp hlevels (.head _)

theorem decoded_named (identifier : String) (hp : info.Proper) :
    (named identifier info).Decoded := by
  refine decoded_of_fits fun level fuel hl _ => List.forall_mem_cons.mpr ⟨?_, ?_⟩
  · exact ⟨_, .head _, fun _ => (text_decodes identifier).map _⟩
  · have hlevels : info.levels ≤ level := by rw [levels] at hl; omega
    exact info_fits hp hlevels (.tail _ (.head _))

theorem decoded_constrained {rule : Rule} (ht : type.Decoded) (hp : rule.Proper) :
    (constrained type rule).Decoded := by
  refine decoded_of_fits fun level fuel hl hf => ?_
  have hlevels : type.levels ≤ level ∧ rule.levels ≤ level := by rw [levels] at hl; omega
  obtain ⟨hlength, -⟩ := List.forall_mem_cons.mp hf
  refine List.forall_mem_cons.mpr ⟨?_, List.forall_mem_singleton.mpr ?_⟩
  · exact first_fits ht hlevels.1 hlength (.head _)
  · exact ⟨_, .tail _ (.head _), fun _ => (rule_decodes hp hlevels.2).map _⟩

theorem decoded_converted (ht : type.Decoded) (functions : List String) :
    (converted type functions).Decoded := by
  refine decoded_of_fits fun level fuel hl hf => ?_
  have hlevels : type.levels ≤ level ∧ 1 ≤ level := by rw [levels] at hl; omega
  obtain ⟨n, rfl⟩ : ∃ n, level = n + 1 := ⟨level - 1, by omega⟩
  obtain ⟨hlength, -⟩ := List.forall_mem_cons.mp hf
  refine List.forall_mem_cons.mpr ⟨?_, List.forall_mem_singleton.mpr ?_⟩
  · exact first_fits ht hlevels.1 hlength (.head _)
  · exact ⟨_, .tail _ (.head _), fun _ => (names_decodes n functions).map _⟩

theorem decoded_defaulted {value : Fallback String} (ht : type.Decoded) (hp : value.Proper) :
    (defaulted type value).Decoded := by
  refine decoded_of_fits fun level fuel hl hf => ?_
  have hlevels : type.levels ≤ level ∧ value.levels ≤ level := by rw [levels] at hl; omega
  obtain ⟨hlength, -⟩ := List.forall_mem_cons.mp hf
  refine List.forall_mem_cons.mpr ⟨?_, List.forall_mem_singleton.mpr ?_⟩
  · exact first_fits ht hlevels.1 hlength (.head _)
  · exact ⟨_, .tail _ (.head _), fun _ => (fallback_decodes hp hlevels.2).map _⟩

theorem decoded_enum {values : List Value} (ht : type.Decoded) (hp : ∀ v ∈ values, v.Proper) :
    (enum type values).Decoded := by
  refine decoded_of_fits fun level fuel hl hf => ?_
  have hlevels : type.levels ≤ level ∧ 1 + Value.itemLevels values ≤ level := by
    rw [levels] at hl
    omega
  obtain ⟨hlength, -⟩ := List.forall_mem_cons.mp hf
  refine List.forall_mem_cons.mpr ⟨?_, List.forall_mem_singleton.mpr ?_⟩
  · exact first_fits ht hlevels.1 hlength (.head _)
  · exact ⟨_, .tail _ (.head _), fun _ => (valueItems_decodes hp hlevels.2).map _⟩

theorem decoded_array (ht : type.Decoded) (hp : info.Proper) : (array type info).Decoded := by
  refine decoded_of_fits fun level fuel hl hf => ?_
  have hlevels : type.levels ≤ level ∧ info.levels ≤ level := by rw [levels] at hl; omega
  obtain ⟨hlength, -⟩ := List.forall_mem_cons.mp hf
  refine List.forall_mem_cons.mpr ⟨?_, ?_⟩
  · exact first_fits ht hlevels.1 hlength (.head _)
  · exact info_fits hp hlevels.2 (.tail _ (.head _))

theorem decoded_sum {left right : Ast} (hl : left.Decoded) (hr : right.Decoded)
    (hp : info.Proper) : (sum left right info).Decoded := by
  refine decoded_of_fits fun level fuel hlevel hf => ?_
  have hlevels : left.levels ≤ level ∧ right.levels ≤ level ∧ info.levels ≤ level := by
    rw [levels] at hlevel
    omega
  obtain ⟨hlengthl, hf⟩ := List.forall_mem_cons.mp hf
  obtain ⟨hlengthr, -⟩ := List.forall_mem_cons.mp hf
  refine List.forall_mem_cons.mpr ⟨?_, List.forall_mem_cons.mpr ⟨?_, ?_⟩⟩
  · exact first_fits hl hlevels.1 hlengthl (.head _)
  · exact second_fits hr hlevels.2.1 hlengthr (.tail _ (.head _))
  · exact info_fits hp hlevels.2.2 (.tail _ (.tail _ (.head _)))

theorem decoded_map {key value : Ast} (hk : key.Decoded) (hv : value.Decoded) (hp : info.Proper) :
    (map key value info).Decoded := by
  refine decoded_of_fits fun level fuel hl hf => ?_
  have hlevels : key.levels ≤ level ∧ value.levels ≤ level ∧ info.levels ≤ level := by
    rw [levels] at hl
    omega
  obtain ⟨hlengthk, hf⟩ := List.forall_mem_cons.mp hf
  obtain ⟨hlengthv, -⟩ := List.forall_mem_cons.mp hf
  refine List.forall_mem_cons.mpr ⟨?_, List.forall_mem_cons.mpr ⟨?_, ?_⟩⟩
  · exact first_fits hk hlevels.1 hlengthk (.head _)
  · exact second_fits hv hlevels.2.1 hlengthv (.tail _ (.head _))
  · exact info_fits hp hlevels.2.2 (.tail _ (.tail _ (.head _)))

theorem decoded_schema {s : Schema Ast String} (ht : ∀ k ∈ s.keys, k.type.Decoded)
    (hk : properKeys s.keys) (hp : s.info.Proper) : (schema s).Decoded := by
  refine decoded_of_fits fun level fuel hl hf => ?_
  have hlevels : 1 + keyLevels s.keys ≤ level ∧ s.info.levels ≤ level := by
    rw [levels] at hl
    omega
  have hlength : (keyTokens s.keys).length ≤ fuel :=
    Nat.le_of_succ_le (List.forall_mem_cons.mp hf).1
  have hdecodes := keys_decodes hk ht hlevels.1 hlength
  refine List.forall_mem_cons.mpr ⟨⟨_, .head _, fun _ => hdecodes.map _⟩, ?_⟩
  refine List.forall_mem_cons.mpr ⟨⟨_, .tail _ (.head _), fun _ => (bool_decodes _).map _⟩, ?_⟩
  refine List.forall_mem_cons.mpr
    ⟨⟨_, .tail _ (.tail _ (.head _)), fun _ => (bool_decodes _).map _⟩, ?_⟩
  refine List.forall_mem_cons.mpr
    ⟨⟨_, .tail _ (.tail _ (.tail _ (.head _))), fun _ => (transform_decodes _ _).map _⟩, ?_⟩
  exact info_fits hp hlevels.2 (.tail _ (.tail _ (.tail _ (.tail _ (.head _)))))

end

/-- Every type is decoded from its tokens. -/
theorem decoded {a : Ast} (hp : a.Proper) : a.Decoded := by
  induction a with
  | nominal p info => exact decoded_nominal p hp
  | any info => exact decoded_any hp
  | constrained type rule ih => exact decoded_constrained (ih hp.1) hp.2
  | converted type functions ih => exact decoded_converted (ih hp) functions
  | sum left right info ihl ihr => exact decoded_sum (ihl hp.1) (ihr hp.2.1) hp.2.2
  | defaulted type value ih => exact decoded_defaulted (ih hp.1) hp.2
  | enum type values ih => exact decoded_enum (ih hp.1) hp.2
  | array member info ih => exact decoded_array (ih hp.1) hp.2
  | map key value info ihk ihv => exact decoded_map (ihk hp.1) (ihv hp.2.1) hp.2.2
  | schema s ih =>
    exact decoded_schema (fun k hk => ih k hk (properKeys_iff.mp hp.1 k hk).2) hp.1 hp.2
  | safe type ih | lax type ih | maybe type ih =>
    refine decoded_of_fits fun level fuel hl hf => List.forall_mem_singleton.mpr ?_
    have hlevels : type.levels ≤ level := by rw [levels] at hl; omega
    have hlength : type.tokens.length ≤ fuel := hf (writtenFirst "type" type) (.head _)
    exact first_fits (ih hp) hlevels hlength (.head _)
  | named identifier info => exact decoded_named identifier hp

theorem ast_decodes {a : Ast} (hp : a.Proper) (hl : a.levels ≤ level) :
    Decodes (ast (.direct level)) a.tokens a := by
  intro rest
  have hlength : a.tokens.length ≤ (a.tokens ++ rest).length := by
    rw [List.length_append]
    exact Nat.le_add_right _ _
  exact decoded hp level _ hl hlength rest

end Ast

end Conform
