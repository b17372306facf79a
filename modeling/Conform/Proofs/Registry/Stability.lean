import Conform.Proofs.Registry.Lookup

namespace Conform.Registry

/-- The type that is first to be registered under an identifier. -/
def firstRegistered? (identifier : String) : List Call → Option Ty
  | [] => none
  | .register name ty :: calls =>
    if name = identifier then some ty else firstRegistered? identifier calls
  | .get _ :: calls => firstRegistered? identifier calls

/-- What is known stays known, registered types for good, and others until a type is registered
under the same identifier. -/
theorem known?_run {r : Registry} {identifier : String} {t : Ty}
    (hk : r.known? identifier = some t) (calls : List Call) :
    (r.run calls).known? identifier =
      some (if r.contains identifier then t else (firstRegistered? identifier calls).getD t) := by
  induction calls generalizing r t with
  | nil => simpa [firstRegistered?, run] using hk
  | cons call calls ih =>
    rw [run_cons]
    cases call with
    | get name =>
      have hlater := ih ((get_leads r name).known? hk)
      rw [contains_get] at hlater
      exact hlater
    | register name ty =>
      by_cases hn : name = identifier
      · subst hn
        cases hc : r.contains name with
        | true =>
          have hsame := ih hk
          rw [hc, if_pos rfl] at hsame
          rw [after_register_taken hc, hsame, if_pos rfl]
        | false =>
          have hnew := known?_register_new hc ty name
          rw [if_pos rfl] at hnew
          rw [ih hnew, contains_register_new hc, if_pos rfl, firstRegistered?, if_pos rfl]
          rfl
      · have hother := ih ((known?_register_other hn ty).trans hk)
        rw [contains_register_other hn] at hother
        rw [firstRegistered?, if_neg hn]
        exact hother

/-- Once an identifier has been looked up, it stands for the same type after any calls, unless the
type was built of parts: then the first one registered under the identifier takes its place. -/
theorem get_run_of_get (r : Registry) (identifier : String) (t : Ty)
    (h : (r.get identifier).1 = .ok t) (calls : List Call) :
    (((r.get identifier).2.run calls).get identifier).1 =
      .ok (if r.contains identifier then t else (firstRegistered? identifier calls).getD t) := by
  have hrun := known?_run (known?_of_get h) calls
  rw [contains_get] at hrun
  rw [get_of_known hrun]

theorem get_run_arrays :
    (arrays.get "array<int>").1 = .ok (.array (.strict .int) {}) ∧
      (((arrays.get "array<int>").2.run
        [.register "int" (.nominal .nil {}), .get "array< array<int> >",
          .register "array<int>" (.nominal .string {})]).get "array<int>").1 =
        .ok (.nominal .string {}) := by
  have hget : (arrays.get "array<int>").1 = .ok (.array (.strict .int) {}) := by rw [get_arrays]
  exact ⟨hget, get_run_of_get arrays "array<int>" _ hget _⟩

/-- A type that has been built of parts gives way to one that is registered later. -/
theorem get_array_shadowed :
    ∃ t t', (arrays.get "array<int>").1 = .ok t ∧
      (((arrays.get "array<int>").2.run [.register "array<int>" (.nominal .string {})]).get
        "array<int>").1 = .ok t' ∧ (t == t') = false := by
  rw [get_arrays]
  exact ⟨.array (.strict .int) {}, .nominal .string {}, rfl, rfl, rfl⟩

end Conform.Registry
