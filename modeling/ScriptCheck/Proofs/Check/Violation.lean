import ScriptCheck.Check.Violation
import ScriptCheck.Proofs.Json.Parser
import ScriptCheck.Proofs.Scalar.Json

namespace ScriptCheck

theorem Category.name_injective : Function.Injective Category.name := by
  intro c c'
  cases c <;> cases c' <;> decide

namespace Violation

variable {v w : Violation}

theorem Kind.name_injective : Function.Injective Kind.name := by
  intro k k'
  cases k <;> cases k' <;> decide

-- What a violation is written under is the name of its kind, though the two are spelled out independently.
theorem snakeCase_label (v : Violation) : Text.snakeCase v.label = v.kind.name := by
  cases v <;> simp only [label, kind, Kind.name] <;> decide

-- With the kind known, the fields only have to be compared with those of the same names.
theorem eq_of_fields_eq (hk : v.kind = w.kind) (h : v.fields = w.fields) : v = w := by
  have ht := List.map_injective_iff.mpr ScalarType.toJson_injective
  cases v <;> cases w <;> cases hk
  all_goals
    simpa [fields, Json.text, Json.nat, Numeral.ofNat, Json.list, Category.name_injective.eq_iff,
      Json.texts_injective.eq_iff, ScalarType.toJson_injective.eq_iff, ht.eq_iff] using h

theorem toJson_injective : Function.Injective toJson := by
  intro v w h
  have ⟨hk, hf⟩ := List.cons.inj <| Json.record_injective h
  have hk : v.kind.name = w.kind.name := by simpa [Json.text, snakeCase_label] using hk
  exact eq_of_fields_eq (Kind.name_injective hk) hf

theorem whole_toJson (v : Violation) : v.toJson.Whole := by
  have ht (t : ScalarType) : t.toJson.Whole := .text
  refine .record <| List.forall_mem_cons.mpr ⟨.text, ?_⟩
  cases v <;> simp [fields, ht, Json.Whole.text, Json.Whole.texts, Json.Whole.list, Json.nat, Json.Whole.number]

theorem written_violations_differ :
    Function.Injective write ∧
    (∀ v : Violation, ∃ members, Json.parse v.write =
      ⟨some (.object ((some "error", .text v.kind.name) :: members) true), true⟩) ∧
    Function.Injective Kind.name := by
  refine ⟨fun v w h => ?_, fun v => ?_, Kind.name_injective⟩
  · exact toJson_injective <| v.whole_toJson.write_inj w.whole_toJson h
  · rw [←snakeCase_label]
    exact ⟨_, v.whole_toJson.parse_write⟩

-- Without escapes these would be written alike.
theorem written_violations_differ_of_quotes :
    (refused "a" "b\",\"message\":\"c").write ≠ (refused "a\",\"message\":\"b" "c").write :=
  written_violations_differ.left.ne (by decide)

end Violation
end ScriptCheck
