import Conform.Proofs.Calendar.Digits
import Conform.Registry.Identifier
import Mathlib.Data.List.Basic

namespace Conform

namespace Unicode

theorem length_trimLeft_le (cs : List Char) : (trimLeft cs).length ≤ cs.length :=
  (List.dropWhile_suffix isBlank).length_le

theorem length_trim_le (cs : List Char) : (trim cs).length ≤ cs.length := by
  have hright := length_trimLeft_le (trimLeft cs).reverse
  have hleft := length_trimLeft_le cs
  simp only [trim, List.length_reverse] at hright ⊢
  omega

theorem trimLeft_append {blanks : List Char} (hb : ∀ c ∈ blanks, isBlank c = true)
    (cs : List Char) : trimLeft (blanks ++ cs) = trimLeft cs :=
  List.dropWhile_append_of_pos hb

/-- Blanks stand at neither end of a text. -/
structure Unpadded (cs : List Char) : Prop where
  first : ∀ c ∈ cs.head?, isBlank c = false
  last : ∀ c ∈ cs.getLast?, isBlank c = false

theorem Unpadded.join {cs ds : List Char} (hc : Unpadded cs) (hd : Unpadded ds) (hcs : cs ≠ [])
    (hds : ds ≠ []) (middle : List Char) : Unpadded (cs ++ middle ++ ds) := by
  constructor
  · obtain ⟨c, rest, rfl⟩ := List.exists_cons_of_ne_nil hcs
    exact hc.first
  · rw [List.getLast?_append_of_ne_nil _ hds]
    exact hd.last

theorem trimLeft_of_first {cs : List Char} (h : ∀ c ∈ cs.head?, isBlank c = false) :
    trimLeft cs = cs := by
  cases cs with
  | nil => rfl
  | cons c cs =>
    have hc := h c rfl
    simp [trimLeft, hc]

theorem trim_blanks {left right cs : List Char} (hl : ∀ c ∈ left, isBlank c = true)
    (hr : ∀ c ∈ right, isBlank c = true) (hne : cs ≠ []) (h : Unpadded cs) :
    trim (left ++ cs ++ right) = cs := by
  have hfirst : trimLeft (left ++ cs ++ right) = cs ++ right := by
    rw [List.append_assoc, trimLeft_append hl]
    apply trimLeft_of_first
    obtain ⟨c, rest, rfl⟩ := List.exists_cons_of_ne_nil hne
    exact h.first
  have hlast : trimLeft (cs ++ right).reverse = cs.reverse := by
    rw [List.reverse_append, trimLeft_append (by simpa using hr)]
    apply trimLeft_of_first
    rw [List.head?_reverse]
    exact h.last
  rw [trim, hfirst, hlast, List.reverse_reverse]

theorem trimLeft_split (cs : List Char) :
    ∃ before, (∀ c ∈ before, isBlank c = true) ∧ cs = before ++ trimLeft cs := by
  refine ⟨cs.takeWhile isBlank, ?_, List.takeWhile_append_dropWhile.symm⟩
  intro c hc
  have hall := List.all_takeWhile (p := isBlank) (l := cs)
  exact List.all_eq_true.mp hall c hc

theorem trim_split (cs : List Char) :
    ∃ before after, (∀ c ∈ before, isBlank c = true) ∧ (∀ c ∈ after, isBlank c = true) ∧
      cs = before ++ trim cs ++ after := by
  obtain ⟨before, hbefore, hfirst⟩ := trimLeft_split cs
  obtain ⟨after, hafter, hlast⟩ := trimLeft_split (trimLeft cs).reverse
  refine ⟨before, after.reverse, hbefore, by simpa using hafter, ?_⟩
  have hlast' := congrArg List.reverse hlast
  rw [List.reverse_reverse, List.reverse_append] at hlast'
  rw [trim, List.append_assoc, ← hlast', ← hfirst]

end Unicode

namespace Identifier

theorem length_of_mem_splitParams {depth : Nat} {part cs p : List Char}
    (h : p ∈ splitParams depth part cs) : p.length ≤ part.length + cs.length := by
  have htrim := Unicode.length_trim_le part.reverse
  rw [List.length_reverse] at htrim
  induction cs generalizing depth part with
  | nil =>
    rw [splitParams, List.mem_singleton] at h
    subst h
    omega
  | cons c cs ih =>
    have hnext := Unicode.length_trim_le (c :: part).reverse
    rw [List.length_reverse, List.length_cons] at hnext
    unfold splitParams at h
    split at h
    next =>
      rcases List.mem_cons.mp h with rfl | h
      · simp only [List.length_cons]
        omega
      · have := ih h (Unicode.length_trim_le _)
        simp only [List.length_nil, List.length_cons] at this ⊢
        omega
    next =>
      have := ih h hnext
      simp only [List.length_cons] at this ⊢
      omega

theorem params?_eq_some {identifier base : String} {params : List String}
    (h : params? identifier = some (base, params)) :
    ∃ outside inside, identifier.toList = outside ++ '<' :: (inside ++ ['>']) ∧
      base = String.ofList (Unicode.trim outside) ∧
      params = (splitParams 0 [] (Unicode.trim inside)).map String.ofList := by
  have htext := List.takeWhile_append_dropWhile (p := (· ≠ '<')) (l := identifier.toList)
  have hstop := List.head?_dropWhile_not (· ≠ '<') identifier.toList
  unfold params? at h
  dsimp only at h
  generalize identifier.toList.takeWhile (· ≠ '<') = outside at h htext
  generalize identifier.toList.dropWhile (· ≠ '<') = rest at htext hstop
  rw [← htext, List.drop_left] at h
  split at h
  next => cases h
  next c body =>
    obtain rfl : c = '<' := by simpa using hstop
    split at h
    next hlast =>
      split at h
      next => cases h
      next =>
        cases h
        refine ⟨outside, body.dropLast, ?_, rfl, rfl⟩
        rw [← htext, List.dropLast_append_getLast? '>' hlast]
    next => cases h

/-- The parts of an identifier with parameters are shorter than it. -/
theorem params?_shorter {identifier base : String} {params : List String}
    (h : params? identifier = some (base, params)) :
    base.length < identifier.length ∧ ∀ p ∈ params, p.length < identifier.length := by
  obtain ⟨outside, inside, htext, rfl, rfl⟩ := params?_eq_some h
  have hlength : identifier.length = outside.length + (inside.length + 2) := by
    rw [← String.length_toList, htext]
    simp
  have hbase := Unicode.length_trim_le outside
  have hinside := Unicode.length_trim_le inside
  refine ⟨?_, fun p hp => ?_⟩
  · rw [String.length_ofList]
    omega
  · obtain ⟨part, hpart, rfl⟩ := List.mem_map.mp hp
    have := length_of_mem_splitParams hpart
    rw [String.length_ofList]
    simp only [List.length_nil] at this
    omega

end Identifier

end Conform
