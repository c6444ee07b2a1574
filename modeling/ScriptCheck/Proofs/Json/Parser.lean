import Mathlib.Data.List.Basic
import ScriptCheck.Json.Parser
import ScriptCheck.Proofs.Json.Token

namespace ScriptCheck
namespace Json

open Token (Lexed Delimited)

namespace Whole

theorem text {s : String} : Whole (text s) :=
  string

theorem list {α : Type} {items : List α} {f : α → Json} (h : ∀ a, Whole (f a)) : Whole (list (items.map f)) := by
  refine array fun v hv => ?_
  have ⟨a, _, ha⟩ := List.mem_map.mp hv
  exact ha ▸ h a

theorem texts {items : List String} : Whole (texts items) :=
  list fun _ => text

theorem record {fields : List (String × Json)} (h : ∀ field ∈ fields, Whole field.2) : Whole (record fields) := by
  refine object fun m hm => ?_
  have ⟨field, hf, he⟩ := List.mem_map.mp hm
  exact he ▸ h field hf

end Whole

theorem texts_injective : Function.Injective texts := by
  have ht : Function.Injective text := fun s s' h => by simpa [text] using h
  intro items items' h
  injection h with h
  exact List.map_injective_iff.mpr ht h

theorem record_injective : Function.Injective record := by
  intro fields fields' h
  injection h with h
  refine List.map_injective_iff.mpr (fun m m' hm => ?_) h
  simpa [Prod.ext_iff] using hm

variable {frames : List Frame} {rest : List Char} {t : Token} {after : List Token} {v : Json}

theorem itemTokens_eq_map (items : List Json) : itemTokens items = items.map tokens := by
  induction items
  case nil  => rfl
  case cons => simp_all [itemTokens]

def memberToken (m : Option String × Json) : List Token :=
  .string m.1 :: .colon :: m.2.tokens

theorem memberTokens_eq_map (members : List (Option String × Json)) :
    memberTokens members = members.map memberToken := by
  induction members
  case nil  => rfl
  case cons => simp_all [memberTokens, memberToken]

theorem run_step {frames' : List Frame} {p p' : Position} (h : step? frames p t = some (frames', p')) :
    run frames p (t :: after) = run frames' p' after := by
  rw [run, h]
  case x_3 =>
    rintro v rfl rfl
    cases t <;> exact nomatch h

-- The reader takes the tokens of `v` for `v`.
def ReadsBack (v : Json) : Prop :=
  ∀ (frames : List Frame) (after : List Token), run frames .value (v.tokens ++ after) = run frames (.after v) after

theorem run_firstItem (v : Json) :
    run frames .firstItem (v.tokens ++ after) = run (.array [] :: frames) .value (v.tokens ++ after) := by
  cases v <;> exact (run_step rfl).trans (run_step rfl).symm

theorem run_items {items : List Json} (h : ∀ w ∈ items, ReadsBack w) (done : List Json) :
    run (.array done :: frames) (.after v) ((items.map tokens).flatMap (.comma :: ·) ++ .closeBracket :: after) =
      run frames (.after (.array (done.reverse ++ v :: items) true)) after := by
  induction items generalizing v done
  case nil =>
    rw [List.map_nil, List.flatMap_nil, List.nil_append, run_step rfl]
    simp [Frame.close]
  case cons w ws hi =>
    have ⟨hw, hs⟩ := List.forall_mem_cons.mp h
    rw [List.map_cons, List.flatMap_cons, List.append_assoc, List.cons_append, run_step rfl, hw, hi hs]
    simp

theorem readsBack_array {items : List Json} (h : ∀ w ∈ items, ReadsBack w) : ReadsBack (.array items true) := by
  intro frames after
  cases items
  case nil => exact (run_step rfl).trans (run_step rfl)
  case cons w ws =>
    have ⟨hw, hs⟩ := List.forall_mem_cons.mp h
    have ht : (array (w :: ws) true).tokens ++ after =
        .openBracket :: (w.tokens ++ ((ws.map tokens).flatMap (.comma :: ·) ++ .closeBracket :: after)) := by
      simp [tokens, itemTokens_eq_map, commas]
    rw [ht, run_step rfl, run_firstItem, hw, run_items hs, List.reverse_nil, List.nil_append]

theorem run_member {done : List (Option String × Json)} {m : Option String × Json} (h : ReadsBack m.2) :
    run frames (.name done) (memberToken m ++ after) = run (.object done m.1 :: frames) (.after m.2) after := by
  rw [memberToken, List.cons_append, List.cons_append, run_step rfl, run_step rfl, h]

theorem run_firstName (m : Option String × Json) :
    run frames .firstName (memberToken m ++ after) = run frames (.name []) (memberToken m ++ after) :=
  (run_step rfl).trans (run_step rfl).symm

theorem run_members {members : List (Option String × Json)} (h : ∀ m ∈ members, ReadsBack m.2)
    (done : List (Option String × Json)) {name : Option String} :
    run (.object done name :: frames) (.after v)
        ((members.map memberToken).flatMap (.comma :: ·) ++ .closeBrace :: after) =
      run frames (.after (.object (done.reverse ++ (name, v) :: members) true)) after := by
  induction members generalizing v done name
  case nil =>
    rw [List.map_nil, List.flatMap_nil, List.nil_append, run_step rfl]
    simp [Frame.close]
  case cons m ms hi =>
    have ⟨hm, hs⟩ := List.forall_mem_cons.mp h
    rw [List.map_cons, List.flatMap_cons, List.append_assoc, List.cons_append, run_step rfl, run_member hm, hi hs]
    simp

theorem readsBack_object {members : List (Option String × Json)} (h : ∀ m ∈ members, ReadsBack m.2) :
    ReadsBack (.object members true) := by
  intro frames after
  cases members
  case nil => exact (run_step rfl).trans (run_step rfl)
  case cons m ms =>
    have ⟨hm, hs⟩ := List.forall_mem_cons.mp h
    have ht : (object (m :: ms) true).tokens ++ after =
        .openBrace :: (memberToken m ++ ((ms.map memberToken).flatMap (.comma :: ·) ++ .closeBrace :: after)) := by
      simp [tokens, memberTokens_eq_map, commas]
    rw [ht, run_step rfl, run_firstName, run_member hm, run_members hs, List.reverse_nil, List.nil_append]

theorem Whole.readsBack (h : Whole v) : ReadsBack v := by
  induction h
  case array hi  => exact readsBack_array hi
  case object hi => exact readsBack_object hi
  all_goals exact fun _ _ => run_step rfl

-- A text of a value is read as that value.
theorem IsText.parse_eq {s : String} (h : v.IsText s) : parse s = ⟨some v, true⟩ := by
  have hr := h.whole.readsBack [] []
  rw [List.append_nil] at hr
  rw [parse, Token.scan, h.lexed.scanOnto_eq, hr]
  rfl

theorem itemChars_eq_map (items : List Json) : itemChars items = items.map chars := by
  induction items
  case nil  => rfl
  case cons => simp_all [itemChars]

-- What is written for one member.
def memberText (m : Option String × Json) : List Char :=
  stringChars m.1 ++ ':' :: m.2.chars

theorem memberChars_eq_map (members : List (Option String × Json)) :
    memberChars members = members.map memberText := by
  induction members
  case nil  => rfl
  case cons => simp_all [memberChars, memberText]

-- The text spells the tokens, in front of anything that may follow a value.
def Spells (s : List Char) (tokens : List Token) : Prop :=
  ∀ (after : List Token) (rest : List Char), Lexed after rest → Delimited rest → Lexed (tokens ++ after) (s ++ rest)

theorem spells_token {s : List Char} (h : t.Spelled s) : Spells s [t] :=
  fun _ _ ha hr => .cons [] rfl h (fun _ _ => hr) ha

section Brackets

variable {α : Type} {text : α → List Char} {f : α → List Token} {as : List α} (h : ∀ a ∈ as, Spells (text a) (f a))
include h

theorem lexed_separated (ha : Lexed after rest) (hr : Delimited rest) :
    Lexed ((as.map f).flatMap (.comma :: ·) ++ after) ((as.map text).flatMap (',' :: ·) ++ rest) ∧
      Delimited ((as.map text).flatMap (',' :: ·) ++ rest) := by
  induction as
  case nil => exact ⟨ha, hr⟩
  case cons a as ih =>
    have ⟨hs, h⟩ := List.forall_mem_cons.mp h
    have ⟨ha, hr⟩ := ih h
    simp only [List.map_cons, List.flatMap_cons, List.append_assoc]
    constructor
    case left  => exact .cons [] rfl .comma nofun <| hs _ _ ha hr
    case right => simp [Delimited]

theorem spells_bracketed {o c : Token} {a b : Char} (ho : o.Spelled [a]) (hc : c.Spelled [b])
    (hn : ∀ n, o ≠ .number n) (hb : b = ']' ∨ b = '}') :
    Spells (a :: separated (as.map text) ++ [b]) (o :: commas (as.map f) ++ [c]) := by
  intro after rest ha hr
  have hl : Lexed (c :: after) (b :: rest) := spells_token hc _ _ ha hr
  have hd : Delimited (b :: rest) := by simp [Delimited, hb]
  have hs : Lexed (commas (as.map f) ++ c :: after) (separated (as.map text) ++ b :: rest) := by
    cases as
    case nil => exact hl
    case cons =>
      have ⟨hs, h⟩ := List.forall_mem_cons.mp h
      have ⟨hl, hd⟩ := lexed_separated h hl hd
      simpa [commas, separated] using hs _ _ hl hd
  simpa using Lexed.cons [] rfl ho (fun n hn' => absurd hn' (hn n)) hs

end Brackets

theorem spells_member {m : Option String × Json} (h : Spells m.2.chars m.2.tokens) :
    Spells (memberText m) (memberToken m) := by
  intro after rest ha hr
  have hl := Lexed.cons [] rfl .colon nofun <| h _ _ ha hr
  simpa [memberText, memberToken] using Lexed.cons [] rfl (Token.spelled_stringChars m.1) nofun hl

theorem Whole.spells (h : Whole v) : Spells v.chars v.tokens := by
  induction h
  case null        => exact spells_token .null
  case bool b      => cases b <;> exact spells_token (by constructor)
  case number n    => exact spells_token <| .number .lower
  case string s    => exact spells_token <| Token.spelled_stringChars s
  case array hi =>
    rw [chars, tokens, itemChars_eq_map, itemTokens_eq_map]
    exact spells_bracketed hi .openBracket .closeBracket nofun (.inl rfl)
  case object hi =>
    rw [chars, tokens, memberChars_eq_map, memberTokens_eq_map]
    exact spells_bracketed (fun m hm => spells_member (hi m hm)) .openBrace .closeBrace nofun (.inr rfl)

theorem Whole.isText_write (h : Whole v) : v.IsText v.write where
  whole := h
  lexed := by simpa [write] using h.spells _ _ (.nil [] rfl) nofun

theorem Whole.parse_write (h : Whole v) : parse v.write = ⟨some v, true⟩ :=
  h.isText_write.parse_eq

-- No two values without open brackets have the same text.
theorem Whole.write_inj {w : Json} (hv : Whole v) (hw : Whole w) (h : v.write = w.write) : v = w := by
  have hp : (⟨some v, true⟩ : Document) = ⟨some w, true⟩ := by rw [←hv.parse_write, ←hw.parse_write, h]
  injection hp with hp
  exact Option.some.inj hp

end Json
end ScriptCheck
