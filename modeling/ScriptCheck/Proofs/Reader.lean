import ScriptCheck.Json.Printer
import ScriptCheck.Proofs.Json.Parser
import ScriptCheck.Proofs.Verdict
import ScriptCheck.Reader

namespace ScriptCheck
namespace Reader

variable {α β σ : Type} {read : Reader α} {j : Json} {a : α}

-- What is read from a value is read from each of its texts, errors included.
theorem run_of_isText (read : Reader α) {s : String} (h : j.IsText s) : read.run s = read j := by
  simp only [Reader.run, h.parse_eq]
  cases read j <;> rfl

theorem run_write (read : Reader α) (h : j.Whole) : read.run j.write = read j :=
  run_of_isText read h.isText_write

structure Reads (read : Reader α) (j : Json) (a : α) : Prop where
  whole   : j.Whole
  read_eq : read j = .ok a

theorem Reads.run (h : Reads read j a) : read.run j.write = .ok a :=
  (run_write read h.whole).trans h.read_eq

theorem reads_text (s : String) : Reads text (.text s) s where
  whole   := .string
  read_eq := rfl

theorem reads_list {items : List β} {f : β → Json} {g : β → α} (h : ∀ b ∈ items, Reads read (f b) (g b)) :
    Reads (list read) (.list (items.map f)) (items.map g) where
  whole := .array <| by
    rintro _ hv
    obtain ⟨b, hb, rfl⟩ := List.mem_map.mp hv
    exact (h b hb).whole
  read_eq := by
    have hm : (items.map f).mapM read = .ok (items.map g) := by
      induction items
      case nil => rfl
      case cons b items hi =>
        have ⟨hb, h⟩ := List.forall_mem_cons.mp h
        rw [List.map_cons, List.mapM_cons, hb.read_eq, hi h]
        rfl
    simp [list, Json.list, hm]

theorem reads_pair {read' : Reader β} {j' : Json} {b : β} (h : Reads read j a) (h' : Reads read' j' b) :
    Reads (pair read read') (.list [j, j']) (a, b) where
  whole := .array <| by simp [h.whole, h'.whole]
  read_eq := by
    simp only [pair, Json.list, h.read_eq, h'.read_eq]
    rfl

theorem reads_optional_none : Reads (optional read) .null none where
  whole   := .null
  read_eq := rfl

theorem reads_optional_some (h : Reads read j a) (hn : j ≠ .null) : Reads (optional read) j (some a) where
  whole := h.whole
  read_eq := by
    cases j
    case null => contradiction
    all_goals
      simp only [optional, h.read_eq]
      rfl

theorem reads_record {fields : List (Field σ)} {empty s : σ} {finish : σ → Option α} {members : List (String × Json)}
    (hw : ∀ m ∈ members, m.2.Whole)
    (hm : (members.map fun (name, value) => (some name, value)).foldlM (member fields) empty = .ok s)
    (hf : finish s = some a) : Reads (record fields empty finish) (.record members) a where
  whole := .object <| by
    rintro _ hv
    obtain ⟨m, hm, rfl⟩ := List.mem_map.mp hv
    exact hw m hm
  read_eq := by
    simp [record, Json.record, hm, hf]

-- Whatever value it is given, what the reader reads has the property.
def Yields (read : Reader α) (p : α → Prop) : Prop :=
  ∀ j a, read j = .ok a → p a

section Yields

variable {p : α → Prop}

theorem yields_true (read : Reader α) : Yields read fun _ => True :=
  fun _ _ _ => trivial

theorem Yields.mapM (h : Yields read p) {items : List Json} {as : List α} (hm : items.mapM read = .ok as) :
    ∀ a ∈ as, p a := by
  induction items generalizing as
  case nil =>
    cases hm
    simp
  case cons j items ih =>
    rw [List.mapM_cons] at hm
    obtain ⟨a, ha, hm⟩ := bind_eq_ok_iff.mp hm
    obtain ⟨as, has, hm⟩ := bind_eq_ok_iff.mp hm
    cases hm
    exact List.forall_mem_cons.mpr ⟨h j a ha, ih has⟩

theorem Yields.list (h : Yields read p) : Yields (list read) fun as => ∀ a ∈ as, p a := by
  intro j as hj
  unfold Reader.list at hj
  split at hj
  case h_1 =>
    obtain ⟨as, has, hj⟩ := bind_eq_ok_iff.mp hj
    split at hj <;> cases hj
    exact h.mapM has
  case h_2 => cases hj

theorem Yields.pair {read' : Reader β} {q : β → Prop} (h : Yields read p) (h' : Yields read' q) :
    Yields (pair read read') fun ab => p ab.1 ∧ q ab.2 := by
  intro j ab hj
  unfold Reader.pair at hj
  split at hj
  case h_2 => cases hj
  case h_1 =>
    split at hj
    case h_2 => cases hj
    case h_1 =>
      obtain ⟨a, ha, hj⟩ := bind_eq_ok_iff.mp hj
      split at hj
      case h_2 => cases hj
      case h_1 =>
        obtain ⟨b, hb, hj⟩ := bind_eq_ok_iff.mp hj
        split at hj <;> cases hj
        exact ⟨h _ a ha, h' _ b hb⟩

theorem Yields.run (h : Yields read p) {s : String} (hs : read.run s = .ok a) : p a := by
  simp only [Reader.run] at hs
  split at hs
  case h_1 => cases hs
  case h_2 j _ =>
    obtain ⟨a, ha, hs⟩ := bind_eq_ok_iff.mp hs
    split at hs <;> cases hs
    exact h j a ha

-- Setting the field keeps an invariant of the record that is filled.
def Field.Keeps (inv : σ → Prop) (field : Field σ) : Prop :=
  ∀ s j s', inv s → field.set s j = .ok s' → inv s'

variable {inv : σ → Prop} {fields : List (Field σ)} {s s' : σ}

theorem Yields.keeps (h : Yields read p) {put : σ → α → σ} (hp : ∀ s a, inv s → p a → inv (put s a)) (name : String)
    (isSet : σ → Bool) : Field.Keeps inv ⟨name, isSet, fun s j => return put s (← read j)⟩ := by
  intro s j s' hs hj
  obtain ⟨a, ha, hj⟩ := bind_eq_ok_iff.mp hj
  cases hj
  exact hp s a hs (h j a ha)

theorem inv_of_member (hf : ∀ field ∈ fields, field.Keeps inv) {m : Option String × Json} (hs : inv s)
    (h : member fields s m = .ok s') : inv s' := by
  unfold member at h
  split at h
  case h_1 => cases h
  case h_2 v =>
    split at h
    case h_1 field hm =>
      split at h
      case isTrue => cases h
      case isFalse => exact hf field (List.mem_of_find?_eq_some hm) s v s' hs h
    case h_2 =>
      split at h <;> cases h
      exact hs

theorem inv_of_foldlM_member (hf : ∀ field ∈ fields, field.Keeps inv) {members : List (Option String × Json)}
    (hs : inv s) (h : members.foldlM (member fields) s = .ok s') : inv s' := by
  induction members generalizing s
  case nil =>
    cases h
    exact hs
  case cons m members ih =>
    rw [List.foldlM_cons] at h
    obtain ⟨s₁, h₁, h⟩ := bind_eq_ok_iff.mp h
    exact ih (inv_of_member hf hs h₁) h

theorem inv_of_items (hf : ∀ field ∈ fields, field.Keeps inv) {values : List Json} (hs : inv s)
    (h : items fields s values = .ok s') : inv s' := by
  induction values generalizing fields s
  case nil =>
    cases fields <;> cases h <;> exact hs
  case cons v values ih =>
    cases fields
    case nil => cases h
    case cons field fields =>
      have ⟨hf, hfs⟩ := List.forall_mem_cons.mp hf
      obtain ⟨s₁, h₁, h⟩ := bind_eq_ok_iff.mp h
      exact ih hfs (hf s v s₁ hs h₁) h

theorem eq_some_of_closed {closed : Bool} {x : Option α}
    (h : (if closed then x.elim refuse .ok else refuse) = .ok a) : x = some a := by
  cases closed
  case false => cases h
  case true =>
    cases x
    case none => cases h
    case some =>
      cases h
      rfl

theorem yields_record (inv : σ → Prop) {empty : σ} {finish : σ → Option α}
    (hf : ∀ field ∈ fields, field.Keeps inv) (he : inv empty) (ha : ∀ s a, inv s → finish s = some a → p a) :
    Yields (record fields empty finish) p := by
  intro j a hj
  unfold record at hj
  split at hj
  case h_1 =>
    obtain ⟨s, hm, hj⟩ := bind_eq_ok_iff.mp hj
    exact ha s a (inv_of_foldlM_member hf he hm) (eq_some_of_closed hj)
  case h_2 =>
    obtain ⟨s, hm, hj⟩ := bind_eq_ok_iff.mp hj
    exact ha s a (inv_of_items hf he hm) (eq_some_of_closed hj)
  case h_3 => cases hj

end Yields

end Reader
end ScriptCheck
