import Conform.Proofs.Ast.Induction
import Conform.Proofs.Wire.Written

namespace Conform

theorem Wire.tagged_shortest {name : String} {data : List Token} (h : ∀ t ∈ data, t.Shortest) :
    ∀ t ∈ tagged name data, t.Shortest := by
  simpa [tagged] using h

theorem Value.tokens_shortest (v : Value) : ∀ t ∈ v.tokens, t.Shortest := by
  induction v with
  | int n =>
    have hlow := n.le_toInt
    have hhigh := n.toInt_lt
    have hshortest := Wire.Token.ofInt_shortest hlow (by omega)
    exact Wire.tagged_shortest (List.forall_mem_singleton.mpr hshortest)
  | array items ih =>
    rw [tokens, itemTokens_eq_flatMap]
    refine Wire.tagged_shortest (List.forall_mem_cons.mpr ⟨trivial, ?_⟩)
    exact List.forall_mem_flatMap.mpr ih
  | hash entries ih =>
    rw [tokens, entryTokens_eq_flatMap]
    refine Wire.tagged_shortest (List.forall_mem_cons.mpr ⟨trivial, ?_⟩)
    refine List.forall_mem_flatMap.mpr fun e he => List.forall_mem_cons.mpr ⟨trivial, ?_⟩
    exact List.forall_mem_append.mpr (ih e he)
  | _ => simp [tokens, Wire.tagged]

theorem Value.itemTokens_shortest (items : List Value) : ∀ t ∈ itemTokens items, t.Shortest := by
  rw [itemTokens_eq_flatMap]
  exact List.forall_mem_flatMap.mpr fun v _ => v.tokens_shortest

theorem Metadata.tokens_shortest (m : Metadata) : ∀ t ∈ m.tokens, t.Shortest := by
  refine List.forall_mem_cons.mpr ⟨trivial, List.forall_mem_flatMap.mpr fun e _ => ?_⟩
  exact List.forall_mem_cons.mpr ⟨trivial, e.2.tokens_shortest⟩

theorem Rule.tokens_shortest (rule : Rule) : ∀ t ∈ rule.tokens, t.Shortest := by
  induction rule with
  | predicate p =>
    have hargs := Value.itemTokens_shortest p.args
    exact Wire.tagged_shortest (by simpa [Predicate.tokens] using hargs)
  | and left right ihl ihr | or left right ihl ihr =>
    refine Wire.tagged_shortest (List.forall_mem_cons.mpr ⟨trivial, ?_⟩)
    exact List.forall_mem_append.mpr ⟨ihl, ihr⟩

theorem Fallback.tokens_shortest (f : Fallback String) : ∀ t ∈ f.tokens, t.Shortest := by
  cases f with
  | literal v => exact Wire.tagged_shortest v.tokens_shortest
  | callable handle => exact Wire.tagged_shortest (List.forall_mem_singleton.mpr trivial)

theorem KeyTransform.tokens_shortest (t : KeyTransform String) :
    ∀ token ∈ t.tokens, token.Shortest := by
  cases t with
  | identity | symbolize | stringify => exact List.forall_mem_singleton.mpr trivial
  | custom handle => exact Wire.tagged_shortest (List.forall_mem_singleton.mpr trivial)

namespace Ast

open Wire (Written)

theorem writtenInfo_shortest (info : Metadata) :
    ∀ w ∈ writtenInfo info, ∀ t ∈ w.data, t.Shortest := by
  unfold writtenInfo
  split
  next => simp
  next => exact List.forall_mem_singleton.mpr info.tokens_shortest

theorem tokens_shortest_of_written {a : Ast} (h : ∀ w ∈ a.written, ∀ t ∈ w.data, t.Shortest) :
    ∀ t ∈ a.tokens, t.Shortest := by
  have hfields : ∀ t ∈ a.written.flatMap Written.tokens, t.Shortest :=
    List.forall_mem_flatMap.mpr fun w hw => List.forall_mem_cons.mpr ⟨trivial, h w hw⟩
  rw [tokens_eq_node]
  simpa [Wire.node] using hfields

theorem keyTokens_shortest {keys : List (Key Ast)}
    (h : ∀ k ∈ keys, ∀ t ∈ k.type.tokens, t.Shortest) : ∀ t ∈ keyTokens keys, t.Shortest := by
  rw [keyTokens_eq_flatMap]
  refine List.forall_mem_flatMap.mpr fun k hk => ?_
  have hname := k.name.tokens_shortest
  have htype := h k hk
  simp only [oneKeyTokens, List.cons_append, List.forall_mem_cons, List.forall_mem_append]
  exact ⟨trivial, trivial, hname, trivial, trivial, trivial, htype⟩

/-- Every integer in a written type is in as few bytes as hold it. -/
theorem tokens_shortest (a : Ast) : ∀ t ∈ a.tokens, t.Shortest := by
  induction a with
  | nominal _ info | named _ info =>
    have hinfo := writtenInfo_shortest info
    exact tokens_shortest_of_written (List.forall_mem_cons.mpr ⟨by simp, hinfo⟩)
  | any info => exact tokens_shortest_of_written (writtenInfo_shortest info)
  | constrained type rule ih =>
    have hrule := rule.tokens_shortest
    exact tokens_shortest_of_written (List.forall_mem_cons.mpr ⟨ih, by simpa using hrule⟩)
  | converted type functions ih =>
    exact tokens_shortest_of_written (List.forall_mem_cons.mpr ⟨ih, by simp⟩)
  | sum left right info ihl ihr | map left right info ihl ihr =>
    have hinfo := writtenInfo_shortest info
    exact tokens_shortest_of_written
      (List.forall_mem_cons.mpr ⟨ihl, List.forall_mem_cons.mpr ⟨ihr, hinfo⟩⟩)
  | defaulted type value ih =>
    have hvalue := value.tokens_shortest
    exact tokens_shortest_of_written (List.forall_mem_cons.mpr ⟨ih, by simpa using hvalue⟩)
  | enum type values ih =>
    have hvalues := Value.itemTokens_shortest values
    exact tokens_shortest_of_written (List.forall_mem_cons.mpr ⟨ih, by simpa using hvalues⟩)
  | array member info ih =>
    have hinfo := writtenInfo_shortest info
    exact tokens_shortest_of_written (List.forall_mem_cons.mpr ⟨ih, hinfo⟩)
  | schema s ih =>
    have hkeys := keyTokens_shortest ih
    have htransform := s.transform.tokens_shortest
    have hinfo := writtenInfo_shortest s.info
    apply tokens_shortest_of_written
    simp only [written, List.forall_mem_cons]
    have hnil := List.forall_mem_nil Wire.Token.Shortest
    exact ⟨⟨trivial, hkeys⟩, ⟨trivial, hnil⟩, ⟨trivial, hnil⟩, htransform, hinfo⟩
  | safe type ih | lax type ih | maybe type ih =>
    exact tokens_shortest_of_written (List.forall_mem_singleton.mpr ih)

end Ast

end Conform
