import ScriptCheck.Proofs.Tree.Built

namespace ScriptCheck

theorem Scalar.not_isFinite_iff {value : Scalar} :
    value.isFinite = false ↔ value = .float .nan ∨ ∃ negative, value = .float (.infinite negative) := by
  cases value
  case float x => cases x <;> simp [isFinite, Binary64.isFinite]
  all_goals simp [isFinite]

namespace Draft

variable {d : Draft} {s : Step} {e : DraftError} {p : NodeId} {name : String} {later : List Step}

theorem apply_eq_error_iff : (d.apply s).1 = .error e ↔ s.errors.find? d.applies = some e := by
  obtain ⟨e', he, hf⟩ | ⟨_, _, he, _, hf⟩ := d.apply_cases s
  · simp [he, hf]
  · simp [he, hf]

theorem refused_iff : (∃ e, (d.apply s).1 = .error e) ↔ ∃ e ∈ s.errors, d.applies e := by
  simp only [apply_eq_error_iff, ←Option.isSome_iff_exists, List.find?_isSome]

theorem apply_of_refused (h : (d.apply s).1 = .error e) : d.apply s = (.error e, d) := by
  obtain ⟨e', he, _⟩ | ⟨_, _, ho, _⟩ := d.apply_cases s
  · rw [he] at h
    exact Except.error.inj h ▸ he
  · simp [ho] at h

-- The answers to steps that are tried in order.
def answers (d : Draft) : List Step → List (Except DraftError (Option NodeId))
  | []         => []
  | s :: steps => (d.apply s).1 :: (d.apply s).2.answers steps

theorem applyAll_of_refused (h : (d.apply s).1 = .error e) : d.applyAll (s :: later) = d.applyAll later := by
  simp only [applyAll, List.foldl_cons, apply_of_refused h]

theorem answers_of_refused (h : (d.apply s).1 = .error e) :
    d.answers (s :: later) = .error e :: d.answers later := by
  simp only [answers, apply_of_refused h]

-- The steps in the history of a draft, without those it refused, are all taken and lead to the same draft.
theorem replay (d : Draft) (steps : List Step) :
    d.applyAll ((d.history steps).map Entry.step) = d.applyAll steps ∧
      d.answers ((d.history steps).map Entry.step) = (d.history steps).map (.ok ·.id?) := by
  induction steps generalizing d
  case nil => exact ⟨rfl, rfl⟩
  case cons s steps ih =>
    obtain ⟨e, he, _⟩ | ⟨id?, d', he, _⟩ := d.apply_cases s
    · simpa [history, applyAll, he] using ih d
    · simpa [history, applyAll, answers, he] using ih d'

theorem Recorded.hasArg_iff {kind : String} {h : List Entry} (hd : Recorded kind h d) :
    d.hasArg p name ↔ ∃ e ∈ h, ∃ a, e.arg? p = some (name, a) := by
  by_cases hp : p.index < d.records.size
  case pos =>
    have hr := Array.getElem?_eq_getElem hp
    rw [hasArg_eq_decide hr, decide_eq_true_iff, Record.argNames, (hd.slots hr).right]
    constructor
    case mp =>
      intro hm
      obtain ⟨⟨_, a⟩, ha, rfl⟩ := List.mem_map.mp hm
      obtain ⟨e, he, ha⟩ := List.mem_filterMap.mp ha
      exact ⟨e, he, a, ha⟩
    case mpr =>
      rintro ⟨e, he, a, ha⟩
      exact List.mem_map.mpr ⟨_, List.mem_filterMap.mpr ⟨e, he, ha⟩, rfl⟩
  case neg =>
    have hn : d.hasArg p name = false := by simp [hasArg, hp]
    simp only [hn, Bool.false_eq_true, false_iff]
    rintro ⟨e, he, a, ha⟩
    by_cases hs : e.step.parent = p
    case pos => exact hp (hs ▸ hd.known e he)
    case neg => simp [arg?_of_ne hs] at ha

theorem refusals_exact_and_traceless (kind : String) (steps : List Step) :
    let h := (start kind).history steps
    let d := (start kind).applyAll steps
    d.records.size < 0x100000000 →
    ((∀ p kind, (∃ e, (d.apply (.body p kind)).1 = .error e) ↔ d.records.size ≤ p.index) ∧
      (∀ p name kind, (∃ e, (d.apply (.node p name kind)).1 = .error e) ↔
        d.records.size ≤ p.index ∨ d.hasArg p name) ∧
      (∀ p name kind value, (∃ e, (d.apply (.leaf p name kind value)).1 = .error e) ↔
        d.records.size ≤ p.index ∨ d.hasArg p name ∨
          value = .float .nan ∨ ∃ negative, value = .float (.infinite negative)) ∧
      (∀ s e, (d.apply s).1 = .error e ↔ s.errors.find? d.applies = some e) ∧
      ∀ p name, d.hasArg p name ↔ ∃ e ∈ h, ∃ a, e.arg? p = some (name, a)) ∧
    (∀ s e, (d.apply s).1 = .error e → (d.apply s).2 = d ∧ ∀ later,
      d.answers (s :: later) = .error e :: d.answers later ∧
      (d.applyAll (s :: later)).build = (d.applyAll later).build) ∧
    ((start kind).applyAll (h.map Entry.step)).build = d.build ∧
    (start kind).answers (h.map Entry.step) = h.map (.ok ·.id?) := by
  intro h d hs
  have hs := Nat.not_le.mpr hs
  have hr := (start kind).replay steps
  refine ⟨⟨?_, ?_, ?_, ?_, ?_⟩, ?_, congrArg build hr.left, hr.right⟩
  · intro p kind
    simp [refused_iff, Step.errors, applies, hs]
  · intro p name kind
    simp [refused_iff, Step.errors, applies, hs]
  · intro p name kind value
    simp [refused_iff, Step.errors, applies, Scalar.not_isFinite_iff]
  · exact fun s e => apply_eq_error_iff
  · exact fun p name => (recorded_history kind steps).hasArg_iff
  · intro s e he
    refine ⟨by rw [apply_of_refused he], fun later => ⟨answers_of_refused he, ?_⟩⟩
    rw [applyAll_of_refused he]

-- A node cannot be below itself, and of two errors that apply the first is the answer.
theorem refusals_among_two_nodes :
    let d := (start "sequence").applyAll [.node ⟨0⟩ "scope" "sum", .body ⟨7⟩ "wait"]
    d.records.size < 0x100000000 ∧
      (d.apply (.leaf ⟨0⟩ "scope" "term" (.float .nan))).1 = .error (.argumentTaken ⟨0⟩ "scope") ∧
      (∃ e, (d.apply (.leaf ⟨1⟩ "left" "term" (.float (.infinite true)))).1 = .error e) ∧
      d.answers [.body ⟨2⟩ "sum", .body ⟨1⟩ "term"] = [.error (.unknownParent ⟨2⟩), .ok (some ⟨2⟩)] := by
  intro d
  have hs : d.records.size < 0x100000000 := by decide +kernel
  have ⟨⟨_, _, hl, he, _⟩, hr, _⟩ :=
    refusals_exact_and_traceless "sequence" [.node ⟨0⟩ "scope" "sum", .body ⟨7⟩ "wait"] hs
  have hb := (he (.body ⟨2⟩ "sum") (.unknownParent ⟨2⟩)).mpr (by decide +kernel)
  refine ⟨hs, (he _ _).mpr (by decide +kernel), (hl ..).mpr <| .inr <| .inr <| .inr ⟨_, rfl⟩, ?_⟩
  exact ((hr _ _ hb).right [.body ⟨1⟩ "term"]).left.trans (by decide +kernel)

end Draft
end ScriptCheck
