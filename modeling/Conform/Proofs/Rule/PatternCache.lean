import Conform.Proofs.Run
import Conform.Rule.PatternCache
import Mathlib.Data.Finset.Card

/-!
Patterns are read once and then kept. The verdicts do not depend on what is kept, and what is kept
is what formats were asked for on strings.
-/

namespace Conform.Standard.PatternCache

variable {π : Type}

/-- What a vocabulary is asked for: the rule of an option, or a verdict. -/
inductive Call where
  | compile (option : String) (arg : Value)
  | judge (p : Predicate) (input : Value)

inductive Answer where
  | rule (result : Result Rule)
  | verdict (holds : Bool)

/-- The answer to a call, and the cache after it. Options are compiled without the cache. -/
def answer (formats : Formats π) (cache : PatternCache π) : Call → Answer × PatternCache π
  | .compile option arg => (.rule (formats.vocabulary.compile option arg), cache)
  | .judge p input => ((cache.judge formats p input).map .verdict id)

/-- The answers to calls one after another, and the cache in the end. -/
def run (formats : Formats π) (cache : PatternCache π) :
    List Call → List Answer × PatternCache π
  | [] => ([], cache)
  | call :: calls =>
    let (a, cache) := cache.answer formats call
    let (answers, cache) := run formats cache calls
    (a :: answers, cache)

namespace Call

/-- The answer of the vocabulary that keeps nothing. -/
def plain (formats : Formats π) : Call → Answer
  | compile option arg => .rule (formats.vocabulary.compile option arg)
  | judge p input => .verdict (formats.vocabulary.holds p input)

/-- The text of the pattern that a call is about: that of a format which meets a string. -/
def source? : Call → Option String
  | judge p (.string _) => if p.name = "format?" then p.args.head?.bind Value.string? else none
  | _ => none

/-- The texts that calls are about. -/
def sources (calls : List Call) : Finset String :=
  (calls.filterMap source?).toFinset

theorem sources_cons (call : Call) (calls : List Call) :
    sources (call :: calls) = sources [call] ∪ sources calls := by
  unfold sources
  cases h : call.source? with
  | none => simp [h]
  | some source => simp [h]

theorem source?_judge {p : Predicate} {input : Value} {source : String} :
    (judge p input).source? = some source ↔
      p.name = "format?" ∧ p.args.head? = some (.string source) ∧ ∃ text, input = .string text := by
  have hstring : ∀ v : Value, v.string? = some source ↔ v = .string source := fun v => by
    cases v <;> simp [Value.string?]
  cases input with
  | string text => simp [source?, Option.bind_eq_some_iff, hstring]
  | _ => simp [source?]

end Call

/-- A cache keeps the patterns of these texts and no others, each of them once. -/
structure Keeps (formats : Formats π) (cache : PatternCache π) (sources : Finset String) :
    Prop where
  once : (cache.patterns.map Prod.fst).Nodup
  read : ∀ source p, (source, p) ∈ cache.patterns ↔
    source ∈ sources ∧ formats.read source = some p

section

variable {formats : Formats π} {cache : PatternCache π} {sources : Finset String}

theorem keeps_empty : Keeps formats {} ∅ where
  once := List.nodup_nil
  read source p := by simp

/-- What a cache keeps is what reading the texts anew gives, so it has as many patterns as there are
patterns among the texts. -/
theorem Keeps.size (h : cache.Keeps formats sources) :
    cache.size = (sources.filter fun source => formats.valid source).card := by
  have hkeys : (cache.patterns.map Prod.fst).toFinset =
      sources.filter fun source => formats.valid source := by
    ext source
    rw [Finset.mem_filter, Formats.valid, Option.isSome_iff_exists]
    simp [h.read]
  rw [← hkeys, List.toFinset_card_of_nodup h.once, List.length_map, PatternCache.size]

/-- A pattern comes from the cache or is read, which gives the same. -/
theorem Keeps.fetch (h : cache.Keeps formats sources) (source : String) :
    (cache.fetch formats source).1 = formats.read source ∧
      (cache.fetch formats source).2.Keeps formats (insert source sources) := by
  unfold PatternCache.fetch
  cases hkept : cache.patterns.lookup source with
  | some p =>
    obtain ⟨hmem, hp⟩ := (h.read source p).mp (mem_of_lookup hkept)
    rw [Finset.insert_eq_of_mem hmem]
    exact ⟨hp.symm, h⟩
  | none =>
    have hnew : source ∉ cache.patterns.map Prod.fst := by
      intro hmem
      obtain ⟨e, he, rfl⟩ := List.mem_map.mp hmem
      simpa using List.lookup_eq_none_iff.mp hkept e he
    cases hp : formats.read source with
    | none =>
      refine ⟨rfl, h.once, fun other q => ?_⟩
      rw [h.read, Finset.mem_insert]
      refine and_congr_left fun hq => ⟨.inr, ?_⟩
      rintro (rfl | hmem)
      · cases hp.symm.trans hq
      · exact hmem
    | some p =>
      refine ⟨rfl, List.nodup_cons.mpr ⟨hnew, h.once⟩, fun other q => ?_⟩
      rw [List.mem_cons, h.read, Finset.mem_insert, Prod.mk.injEq]
      constructor
      · rintro (⟨rfl, rfl⟩ | ⟨hmem, hq⟩)
        · exact ⟨.inl rfl, hp⟩
        · exact ⟨.inr hmem, hq⟩
      · rintro ⟨rfl | hmem, hq⟩
        · exact .inl ⟨rfl, Option.some.inj (hq.symm.trans hp)⟩
        · exact .inr ⟨hmem, hq⟩

/-- A format that meets a string is the only predicate that the cache has a part in. -/
theorem judge_of_source?_eq_none {p : Predicate} {input : Value}
    (hs : (Call.judge p input).source? = none) : cache.judge formats p input =
      (formats.vocabulary.holds p input, cache) := by
  unfold judge
  split
  next source text hname harg =>
    have hsource : (Call.judge p (.string text)).source? = some source :=
      Call.source?_judge.mpr ⟨hname, harg, text, rfl⟩
    cases hs.symm.trans hsource
  next => rfl

theorem judge_format {p : Predicate} {source text : String} (hname : p.name = "format?")
    (harg : p.args.head? = some (.string source)) :
    cache.judge formats p (.string text) =
      ((cache.fetch formats source).1.any fun q => formats.isMatch q text,
        (cache.fetch formats source).2) := by
  unfold judge
  rw [hname, harg]
  rfl

theorem holds_format {p : Predicate} {source text : String} (hname : p.name = "format?")
    (harg : p.args.head? = some (.string source)) :
    formats.vocabulary.holds p (.string text) = formats.formatted source text := by
  change holdsWith formats.formatted p (.string text) = _
  unfold holdsWith
  rw [hname, harg]
  rfl

/-- A call is answered as the vocabulary answers it, and has the text that it is about kept. -/
theorem Keeps.answer (h : cache.Keeps formats sources) (call : Call) :
    (cache.answer formats call).1 = call.plain formats ∧
      (cache.answer formats call).2.Keeps formats (sources ∪ Call.sources [call]) := by
  cases hs : call.source? with
  | none =>
    have hnone : Call.sources [call] = ∅ := by simp [Call.sources, hs]
    rw [hnone, Finset.union_empty]
    cases call with
    | compile option arg => exact ⟨rfl, h⟩
    | judge p input =>
      rw [PatternCache.answer, judge_of_source?_eq_none hs]
      exact ⟨rfl, h⟩
  | some source =>
    have hone : Call.sources [call] = {source} := by simp [Call.sources, hs]
    rw [hone, Finset.union_singleton]
    cases call with
    | compile option arg => cases hs
    | judge p input =>
      obtain ⟨hname, harg, text, rfl⟩ := Call.source?_judge.mp hs
      obtain ⟨hread, hkeeps⟩ := h.fetch source
      rw [PatternCache.answer, judge_format hname harg, hread]
      exact ⟨congrArg Answer.verdict (holds_format hname harg).symm, hkeeps⟩

/-- Any calls are answered as the vocabulary answers each of them. -/
theorem Keeps.run (h : cache.Keeps formats sources) (calls : List Call) :
    (cache.run formats calls).1 = calls.map (Call.plain formats) ∧
      (cache.run formats calls).2.Keeps formats (sources ∪ Call.sources calls) := by
  induction calls generalizing cache sources with
  | nil => exact ⟨rfl, by simpa [PatternCache.run, Call.sources] using h⟩
  | cons call calls ih =>
    obtain ⟨hanswer, hkeeps⟩ := h.answer call
    obtain ⟨hanswers, hend⟩ := ih hkeeps
    rw [Call.sources_cons, ← Finset.union_assoc]
    exact ⟨List.cons_eq_cons.mpr ⟨hanswer, hanswers⟩, hend⟩

/-- Each call is answered as if nothing had been asked before it, and as the vocabulary answers it
that keeps no patterns. As many patterns are kept as there are different ones among the texts of the
formats that met strings. -/
theorem run_transparent (formats : Formats π) (calls : List Call) :
    ((run formats {} calls).1 = calls.map fun call => (answer formats {} call).1) ∧
      (∀ call, (answer formats {} call).1 = call.plain formats) ∧
      (run formats {} calls).2.size =
        ((Call.sources calls).filter fun source => formats.valid source).card := by
  obtain ⟨hanswers, hkeeps⟩ := keeps_empty.run calls
  have hplain : ∀ call, (answer formats {} call).1 = call.plain formats :=
    fun call => (keeps_empty.answer call).1
  refine ⟨?_, hplain, ?_⟩
  · rw [hanswers]
    exact List.map_congr_left fun call _ => (hplain call).symm
  · rw [hkeeps.size, Finset.empty_union]

end

example :
    (run .standard {} [.compile "format" (.string "a+"),
      .judge ⟨"format?", [.string "a+"]⟩ (.string "baa"),
      .judge ⟨"format?", [.string "("]⟩ (.string "("), .judge ⟨"format?", [.string "b"]⟩ .nil,
      .judge ⟨"format?", [.string "a+", .nil]⟩ (.string "b")]).2.size = 1 := by
  decide +kernel

end Conform.Standard.PatternCache
