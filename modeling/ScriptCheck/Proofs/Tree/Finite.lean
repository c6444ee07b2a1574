import ScriptCheck.Proofs.Scalar.Range
import ScriptCheck.Proofs.Tree.Defect
import ScriptCheck.Proofs.Tree.Json
import ScriptCheck.Tree.Same

namespace ScriptCheck

theorem Binary64.same_self {x : Binary64} (h : x.isFinite) : x.same x := by
  cases x
  case finite => simp [same]
  all_goals contradiction

namespace Scalar

theorem same_self {x : Scalar} (h : x.isFinite) : x.same x := by
  cases x
  case float x => exact Binary64.same_self h
  all_goals simp [same]

theorem isFinite_of_ofFloat {x : Binary64} {y : Scalar} (h : ofFloat x = .ok y) : y.isFinite := by
  unfold ofFloat at h
  split at h <;> cases h
  assumption

theorem isFinite_of_readFloat {n : Numeral} {x : Scalar} (h : readFloat n = .ok x) : x.isFinite := by
  simp only [readFloat] at h
  split at h
  case isTrue  => exact isFinite_of_ofFloat (mapError_eq_ok_iff.mp h)
  case isFalse => cases h

theorem isFinite_of_ofUnsigned {n : UInt64} {x : Scalar} (h : ofUnsigned n = .ok x) : x.isFinite := by
  unfold ofUnsigned at h
  split at h <;> cases h
  rfl

theorem isFinite_of_ofNumeral {n : Numeral} {x : Scalar} (h : ofNumeral n = .ok x) : x.isFinite := by
  unfold ofNumeral at h
  split at h
  case isFalse => exact isFinite_of_readFloat h
  case isTrue =>
    split at h <;> split at h
    case isTrue.isTrue =>
      cases h
      rfl
    case isFalse.isTrue => exact isFinite_of_ofUnsigned (mapError_eq_ok_iff.mp h)
    all_goals exact isFinite_of_readFloat h

theorem yields_finite : Reader.Yields read (·.isFinite) := by
  intro j x h
  unfold read at h
  split at h
  case h_1 => exact isFinite_of_ofNumeral h
  case h_4 => cases h
  all_goals
    cases h
    rfl

theorem le_whole_of_not_isFinite {n : Numeral} (h : ¬(n.toBinary64 n.tie).isFinite) (hp : n.isPlain) :
    0x10000000000000000 ≤ n.whole := by
  by_contra hl
  cases Nat.eq_zero_or_pos n.whole
  case inl hw =>
    obtain ⟨hf, he⟩ : n.fraction = [] ∧ n.exponent = none := by simpa [Numeral.isPlain] using hp
    simp [Numeral.toBinary64, Numeral.coefficient, Numeral.scale, hf, he, hw, Binary64.ofDecimal,
      Binary64.isFinite] at h
  case inr hw =>
    obtain ⟨m, hm, _⟩ := readFloat_eq_float hp hw (Nat.lt_trans (Nat.not_le.mp hl) (by decide +kernel))
    rw [readFloat, if_neg h] at hm
    cases hm

-- Integers that fit into 64 bits are far from being too large for a float, so a numeral that is too large is not
-- read as an integer.
theorem ofNumeral_of_not_isFinite {n : Numeral} (h : ¬(n.toBinary64 n.tie).isFinite) :
    ofNumeral n = Reader.refuse := by
  have hr : readFloat n = Reader.refuse := if_neg h
  by_cases hp : n.isPlain
  case pos =>
    have hl := le_whole_of_not_isFinite h hp
    rw [ofNumeral_of_large hp (fun _ => by omega) (fun _ => hl), hr]
  case neg => rw [ofNumeral, if_neg hp, hr]

theorem readFloat_of_isFinite {n : Numeral} (h : (n.toBinary64 n.tie).isFinite) :
    readFloat n = .ok (float (n.toBinary64 n.tie)) := by
  simp only [readFloat, ofFloat, if_pos h]
  rfl

theorem ofNumeral_ne_refuse {n : Numeral} (h : (n.toBinary64 n.tie).isFinite) : ofNumeral n ≠ Reader.refuse := by
  intro hn
  rw [ofNumeral, readFloat_of_isFinite h] at hn
  split at hn
  case isFalse => cases hn
  case isTrue =>
    split at hn <;> split at hn
    case isFalse.isTrue =>
      obtain ⟨_, _, hn⟩ := mapError_eq_error_iff.mp hn
      cases hn
    all_goals cases hn

theorem read_number_eq_malformed_iff (n : Numeral) :
    read (.number n) = .error .malformed ↔ ¬(n.toBinary64 n.tie).isFinite :=
  ⟨fun h hf => ofNumeral_ne_refuse hf h, ofNumeral_of_not_isFinite⟩

end Scalar

-- Only the value matters. The other fields leave it as it is.
theorem Leaf.yields_finite : Reader.Yields read (·.value.isFinite) := by
  refine Reader.yields_record (fun s => ∀ x, s.value = some x → x.isFinite) ?_ nofun ?_
  · simp only [fields, List.forall_mem_cons]
    refine ⟨(Reader.yields_true _).keeps ?_ _ _, Scalar.yields_finite.keeps ?_ _ _,
      (Reader.yields_true _).keeps ?_ _ _, by simp⟩
    · exact fun _ _ h _ => h
    · rintro _ x _ hx _ ⟨⟩
      exact hx
    · exact fun _ _ h _ => h
  · intro s l h hl
    simp only [Fields.finish, Option.bind_eq_bind, Option.bind_eq_some_iff] at hl
    obtain ⟨_, _, x, hx, _, _, hl⟩ := hl
    cases hl
    exact h x hx

theorem Arg.yields_finite : Reader.Yields read Finite := by
  intro j a h
  simp only [read] at h
  split at h
  case h_2 => cases h
  case h_1 =>
    split at h
    all_goals
      obtain ⟨a, ha, h⟩ := bind_eq_ok_iff.mp h
      split at h <;> cases h
    case h_1.isTrue =>
      obtain ⟨_, _, rfl⟩ := map_eq_ok_iff.mp ha
      rintro _ ⟨⟩
    case h_2.isTrue =>
      obtain ⟨l, hl, rfl⟩ := map_eq_ok_iff.mp ha
      rintro _ ⟨⟩
      exact Leaf.yields_finite _ l hl
    case h_3.isTrue => cases ha

theorem Record.yields_finite : Reader.Yields read Finite := by
  have ha := ((Reader.yields_true Reader.text).pair Arg.yields_finite).list
  refine Reader.yields_record (fun s => ∀ args, s.args = some args → ∀ arg ∈ args, arg.2.Finite) ?_ nofun ?_
  · simp only [fields, List.forall_mem_cons]
    refine ⟨(Reader.yields_true _).keeps ?_ _ _, ha.keeps ?_ _ _, (Reader.yields_true _).keeps ?_ _ _,
      (Reader.yields_true _).keeps ?_ _ _, by simp⟩
    · exact fun _ _ h _ => h
    · rintro _ args _ ha _ ⟨⟩
      exact fun arg harg => (ha arg harg).right
    · exact fun _ _ h _ => h
    · exact fun _ _ h _ => h
  · intro s r h hr
    simp only [Fields.finish, Option.bind_eq_bind, Option.bind_eq_some_iff] at hr
    obtain ⟨_, _, hr⟩ := hr
    cases hr
    cases hs : s.args
    case none => simp [Finite]
    case some args => simpa [Finite, hs] using h args hs

namespace Tree

theorem yields_finiteLeaves : Reader.Yields readParts fun parts => FiniteLeaves parts.2 := by
  refine Reader.yields_record (fun s => ∀ records, s.records = some records → ∀ r ∈ records, r.Finite) ?_ nofun ?_
  · simp only [fields, List.forall_mem_cons]
    refine ⟨(Reader.yields_true _).keeps ?_ _ _, Record.yields_finite.list.keeps ?_ _ _, by simp⟩
    · exact fun _ _ h _ => h
    · rintro _ records _ hr _ ⟨⟩
      exact hr
  · intro s parts h hp
    simp only [Fields.finish, Option.bind_eq_bind, Option.bind_eq_some_iff] at hp
    obtain ⟨_, _, records, hr, hp⟩ := hp
    cases hp
    simpa [FiniteLeaves] using h records hr

end Tree

theorem Arg.same_self {a : Arg} (h : a.Finite) : a.same a := by
  cases a
  case node => simp [same]
  case leaf l => simp [same, Leaf.same, Scalar.same_self (h l rfl)]

theorem Record.same_self {r : Record} (h : r.Finite) : r.same r := by
  have ha : r.args.isEqv r.args fun a b => a.1 == b.1 && a.2.same b.2 :=
    Array.isEqv_iff_rel.mpr ⟨rfl, fun i hi => by simp [Arg.same_self (h _ (Array.getElem_mem hi))]⟩
  simp [same, ha]

namespace Tree

theorem same_self {t : Tree} (h : FiniteLeaves t.records) : t.same t := by
  have hr : t.records.isEqv t.records Record.same :=
    Array.isEqv_iff_rel.mpr ⟨rfl, fun i hi => Record.same_self (h _ (Array.getElem_mem hi))⟩
  simp [same, hr]

theorem ofRecords_ne_nonFiniteLeaf {root : NodeId} {records : Array Record} (h : FiniteLeaves records) (id : NodeId)
    (name : String) : ofRecords root records ≠ .error (.nonFiniteLeaf id name) := by
  intro he
  cases accurate_of_ofRecords he
  case defect hd =>
    cases hd
    case nonFiniteLeaf hf hr ha => exact hf <| h _ (Array.mem_of_getElem? hr) _ ha _ rfl

theorem load_ne_nonFiniteLeaf (s : String) (id : NodeId) (name : String) :
    load s ≠ .error (.shape (.nonFiniteLeaf id name)) := by
  intro h
  cases bind_eq_error_iff.mp h
  case inl h =>
    obtain ⟨_, _, h⟩ := mapError_eq_error_iff.mp h
    cases h
  case inr h =>
    obtain ⟨_, hp, h⟩ := h
    obtain ⟨_, h, he⟩ := mapError_eq_error_iff.mp h
    cases he
    exact ofRecords_ne_nonFiniteLeaf (yields_finiteLeaves.run (mapError_eq_ok_iff.mp hp)) id name h

theorem obtained_finite :
    (∀ t : Tree, t.Obtained → FiniteLeaves t.records ∧ t.same t) ∧
    (∀ s id name, load s ≠ .error (.shape (.nonFiniteLeaf id name))) ∧
    (∀ s root records, readParts.run s = .ok (root, records) → FiniteLeaves records) ∧
    (∀ j x, Scalar.read j = .ok x → x.isFinite) ∧
    ∀ n : Numeral, Scalar.read (.number n) = .error .malformed ↔ ¬(n.toBinary64 n.tie).isFinite := by
  refine ⟨fun t ht => ?_, load_ne_nonFiniteLeaf, fun _ _ _ h => yields_finiteLeaves.run h, Scalar.yields_finite,
    Scalar.read_number_eq_malformed_iff⟩
  have hf := ht.wellFormed.finiteLeaves
  exact ⟨hf, same_self hf⟩

-- A draft takes minus zero after it has refused a float that is no number. A numeral that is too large is refused when
-- it is read, and its float when the shape is checked.
theorem obtained_finite_of_refused :
    let t := ((Draft.start "wait").applyAll
      [.leaf ⟨0⟩ "time" "float" (.float .nan), .leaf ⟨0⟩ "time" "float" (.float (.finite true .zero))]).build
    let n : Numeral := { negative := false, whole := 1, exponent := some ⟨.none, 9, [9, 9]⟩ }
    t.records = #[⟨"wait", #[("time", .leaf ⟨"float", .float (.finite true .zero), ⟨0⟩⟩)], #[], none⟩] ∧ t.same t ∧
    Scalar.read (.number n) = .error .malformed ∧
    ofRecords ⟨0⟩ #[⟨"wait", #[("time", .leaf ⟨"float", .float (n.toBinary64 n.tie), ⟨0⟩⟩)], #[], none⟩] =
      .error (.nonFiniteLeaf ⟨0⟩ "time") := by
  intro t n
  obtain ⟨ht, _, _, _, hn⟩ := obtained_finite
  exact ⟨by decide +kernel, (ht t <| .draft _ _).right, (hn n).mpr (by decide +kernel), by decide +kernel⟩

end Tree
end ScriptCheck
