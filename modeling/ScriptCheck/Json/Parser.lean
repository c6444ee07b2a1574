import ScriptCheck.Json.Token

namespace ScriptCheck.Json

-- An open bracket with what stands after it, in reverse order. In an object a member's name has been read.
inductive Frame where
  | array (items : List Json)
  | object (members : List (Option String × Json)) (name : Option String)

namespace Frame

-- The frame's array or object with `v` as its last item or member.
def close (closed : Bool) (v : Json) : Frame → Json
  | array items         => .array (v :: items).reverse closed
  | object members name => .object ((name, v) :: members).reverse closed

end Frame

-- What the reader has met last. A value or a name may also be the first one after its open bracket.
inductive Position where
  | value
  | firstItem
  | firstName
  | name (members : List (Option String × Json))
  | colon (members : List (Option String × Json)) (name : Option String)
  | after (v : Json)

-- A text read to its end or to its first fault. There is no value if the fault comes first, and the text is
-- complete if nothing comes after its value.
structure Document where
  value : Option Json
  complete : Bool

-- The faulty value that is left of open frames.
def abandon (v : Json) : List Frame → Json
  | []          => v
  | f :: frames => abandon (f.close false v) frames

def faulty : List Frame → Position → Document
  | frames,              .after v          => ⟨some (abandon v frames), false⟩
  | frames,              .firstItem        => ⟨some (abandon (.array [] false) frames), false⟩
  | frames,              .firstName        => ⟨some (abandon (.object [] false) frames), false⟩
  | frames,              .name members     => ⟨some (abandon (.object members.reverse false) frames), false⟩
  | frames,              .colon members _  => ⟨some (abandon (.object members.reverse false) frames), false⟩
  | .array items :: frames, .value         => ⟨some (abandon (.array items.reverse false) frames), false⟩
  | .object members _ :: frames, .value    => ⟨some (abandon (.object members.reverse false) frames), false⟩
  | [],                  .value            => ⟨none, false⟩

-- The values that are single tokens.
def atom? : Token → Option Json
  | .null     => some .null
  | .bool b   => some (.bool b)
  | .number n => some (.number n)
  | .string s => some (.string s)
  | _         => none

-- Where the reader stands after a token at which a value may start.
def enter? (frames : List Frame) : Token → Option (List Frame × Position)
  | .openBracket => some (frames, .firstItem)
  | .openBrace   => some (frames, .firstName)
  | t            => (atom? t).map fun v => (frames, .after v)

-- Where the reader stands after the next token, if the token may come there.
def step? : List Frame → Position → Token → Option (List Frame × Position)
  | frames, .value, t                      => enter? frames t
  | frames, .firstItem, .closeBracket      => some (frames, .after (.array [] true))
  | frames, .firstItem, t                  => enter? (.array [] :: frames) t
  | frames, .firstName, .closeBrace        => some (frames, .after (.object [] true))
  | frames, .firstName, .string s          => some (frames, .colon [] s)
  | frames, .name members, .string s       => some (frames, .colon members s)
  | frames, .colon members s, .colon       => some (.object members s :: frames, .value)
  | .array items :: frames, .after v, .comma => some (.array (v :: items) :: frames, .value)
  | .array items :: frames, .after v, .closeBracket =>
    some (frames, .after (Frame.close true v (.array items)))
  | .object members s :: frames, .after v, .comma => some (frames, .name ((s, v) :: members))
  | .object members s :: frames, .after v, .closeBrace =>
    some (frames, .after (Frame.close true v (.object members s)))
  | _, _, _ => none

def run : List Frame → Position → List Token → Document
  | [], .after v, tokens  => ⟨some v, tokens.isEmpty⟩
  | frames, position, []  => faulty frames position
  | frames, position, t :: tokens =>
    match step? frames position t with
    | some (frames, position) => run frames position tokens
    | none                    => faulty frames position

def parse (s : String) : Document :=
  run [] .value (Token.scan s)

end ScriptCheck.Json
