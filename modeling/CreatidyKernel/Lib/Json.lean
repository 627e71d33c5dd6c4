import Mathlib.Data.String.Basic
import CreatidyKernel.Lib.SortedBy

set_option relaxedAutoImplicit false
set_option autoImplicit false

/-!
# JSON values and their compact ASCII text

JSON values, the text `json.dumps(value, sort_keys=True, separators=(",", ":"),
ensure_ascii=True)` writes for them, and the decoder `json.loads`.

A dictionary is kept as the list of its entries in key order (`Json.WF`): two Python
dictionaries are equal exactly when these lists are, and `sort_keys` prints this list.
A finite float stands for its `repr`, the text that `json.dumps` writes for it, and strings are
sequences of Unicode scalar values; a text with another float literal or with a lone surrogate is
refused by `loads` here, where Python would build a value that no typed field below accepts.

## Main definitions

* `Json`, `Json.WF` — values, and the invariant that every object lists its keys in order.
* `Json.print`, `dumps` — the compact text of a value.
* `Json.parseValue`, `loads` — the decoder, with insignificant white space, all escapes,
  surrogate pairs, and the last of several equal keys winning.

## Main results

* `Json.loads_dumps` — decoding the text of a well-formed value gives the value back.
* `Json.dumps_injective` — different well-formed values have different texts.
-/

namespace CreatidyKernel

/-! ## Properties of all characters of a text -/

/-- A property of the characters of a text is decided on the text, not on every character there
is. -/
instance decidableForallChar (cs : List Char) (p : Char → Prop) [DecidablePred p] :
    Decidable (∀ c ∈ cs, p c) :=
  List.decidableBAll p cs

instance decidableExistsChar (cs : List Char) (p : Char → Prop) [DecidablePred p] :
    Decidable (∃ c ∈ cs, p c) :=
  List.decidableBEx p cs

/-! ## The texts of floats -/

/-- The exponent of a float: its sign and at least two digits. -/
def isExponent : List Char → Bool
  | 'e' :: '+' :: ds => decide (2 ≤ ds.length) && ds.all Char.isDigit
  | 'e' :: '-' :: ds => decide (2 ≤ ds.length) && ds.all Char.isDigit
  | _ => false

/-- What follows the integer part of a float: a fraction, an exponent or both. -/
def isScale : List Char → Bool
  | '.' :: r => !(r.takeWhile Char.isDigit).isEmpty &&
      ((r.dropWhile Char.isDigit).isEmpty || isExponent (r.dropWhile Char.isDigit))
  | r => isExponent r

/-- The text after the sign of a number. -/
def unsigned : List Char → List Char
  | '-' :: r => r
  | r => r

/-- The digits of an integer part, without superfluous leading zeros. -/
def isWhole (digits : List Char) : Bool :=
  !digits.isEmpty && (digits.head? != some '0' || digits.length == 1)

/-- The shape of the `repr` of a finite float. -/
def isFloatText (cs : List Char) : Bool :=
  isWhole ((unsigned cs).takeWhile Char.isDigit) && isScale ((unsigned cs).dropWhile Char.isDigit)

/-- A finite float, as the text that is written for it. -/
abbrev FloatText := {cs : List Char // isFloatText cs = true}

/-- A JSON value. -/
inductive Json
  | null
  | bool (b : Bool)
  | int (n : Int)
  | float (text : FloatText)
  | str (s : String)
  | arr (items : List Json)
  | obj (fields : List (String × Json))

namespace Json

/-! ## Well-formed values -/

mutual

/-- Every object in the value lists its keys in strictly increasing order. -/
def WF : Json → Prop
  | .null => True
  | .bool _ => True
  | .int _ => True
  | .float _ => True
  | .str _ => True
  | .arr items => WFItems items
  | .obj fields => (fields.map Prod.fst).Pairwise (· < ·) ∧ WFFields fields

/-- Every item is well formed. -/
def WFItems : List Json → Prop
  | [] => True
  | v :: vs => v.WF ∧ WFItems vs

/-- Every field holds a well-formed value. -/
def WFFields : List (String × Json) → Prop
  | [] => True
  | (_, v) :: fs => v.WF ∧ WFFields fs

end

@[simp] theorem wf_null : Json.null.WF := trivial
@[simp] theorem wf_bool (b : Bool) : (Json.bool b).WF := trivial
@[simp] theorem wf_int (n : Int) : (Json.int n).WF := trivial
@[simp] theorem wf_float (f : FloatText) : (Json.float f).WF := trivial
@[simp] theorem wf_str (s : String) : (Json.str s).WF := trivial

theorem wfItems_iff : ∀ vs : List Json, WFItems vs ↔ ∀ v ∈ vs, v.WF
  | [] => by simp [WFItems]
  | v :: vs => by simp [WFItems, wfItems_iff vs]

theorem wfFields_iff : ∀ fs : List (String × Json), WFFields fs ↔ ∀ f ∈ fs, f.2.WF
  | [] => by simp [WFFields]
  | (k, v) :: fs => by simp [WFFields, wfFields_iff fs]

@[simp] theorem wf_arr (vs : List Json) : (Json.arr vs).WF ↔ ∀ v ∈ vs, v.WF := by
  rw [WF, wfItems_iff]

@[simp] theorem wf_obj (fs : List (String × Json)) :
    (Json.obj fs).WF ↔ (fs.map Prod.fst).Pairwise (· < ·) ∧ ∀ f ∈ fs, f.2.WF := by
  rw [WF, wfFields_iff]

theorem wf_nil : (obj []).WF := by simp

/-! ## Decidable equality -/

mutual

/-- Two values are compared constructor by constructor. -/
def decEq : (v w : Json) → Decidable (v = w)
  | .null, .null => isTrue rfl
  | .bool a, .bool b => decidable_of_iff (a = b) (by simp)
  | .int a, .int b => decidable_of_iff (a = b) (by simp)
  | .float a, .float b => decidable_of_iff (a = b) (by simp)
  | .str a, .str b => decidable_of_iff (a = b) (by simp)
  | .arr vs, .arr ws =>
    have := decEqItems vs ws
    decidable_of_iff (vs = ws) (by simp)
  | .obj fs, .obj gs =>
    have := decEqFields fs gs
    decidable_of_iff (fs = gs) (by simp)
  | .null, .bool _ | .null, .int _ | .null, .float _
  | .null, .str _ | .null, .arr _ | .null, .obj _
  | .bool _, .null | .bool _, .int _ | .bool _, .float _
  | .bool _, .str _ | .bool _, .arr _ | .bool _, .obj _
  | .int _, .null | .int _, .bool _ | .int _, .float _
  | .int _, .str _ | .int _, .arr _ | .int _, .obj _
  | .float _, .null | .float _, .bool _ | .float _, .int _
  | .float _, .str _ | .float _, .arr _ | .float _, .obj _
  | .str _, .null | .str _, .bool _ | .str _, .int _
  | .str _, .float _ | .str _, .arr _ | .str _, .obj _
  | .arr _, .null | .arr _, .bool _ | .arr _, .int _
  | .arr _, .float _ | .arr _, .str _ | .arr _, .obj _
  | .obj _, .null | .obj _, .bool _ | .obj _, .int _
  | .obj _, .float _ | .obj _, .str _ | .obj _, .arr _ =>
    isFalse nofun

/-- Two lists of items. -/
def decEqItems : (vs ws : List Json) → Decidable (vs = ws)
  | [], [] => isTrue rfl
  | [], _ :: _ => isFalse nofun
  | _ :: _, [] => isFalse nofun
  | v :: vs, w :: ws =>
    have := decEq v w
    have := decEqItems vs ws
    decidable_of_iff (v = w ∧ vs = ws) (by simp)

/-- Two lists of fields. -/
def decEqFields : (fs gs : List (String × Json)) → Decidable (fs = gs)
  | [], [] => isTrue rfl
  | [], _ :: _ => isFalse nofun
  | _ :: _, [] => isFalse nofun
  | (k, v) :: fs, (l, w) :: gs =>
    have := decEq v w
    have := decEqFields fs gs
    decidable_of_iff ((k = l ∧ v = w) ∧ fs = gs) (by simp)

end

instance : DecidableEq Json := decEq

/-! ## Printing -/

/-- `\uXXXX` for a 16-bit code unit, with lower-case hexadecimal digits. -/
def escapeUnit (n : ℕ) : List Char :=
  ['\\', 'u', Nat.digitChar (n / 4096 % 16), Nat.digitChar (n / 256 % 16),
    Nat.digitChar (n / 16 % 16), Nat.digitChar (n % 16)]

/-- The text of one character inside a string: printable ASCII stands for itself, the rest
is escaped, beyond the basic plane as a surrogate pair. -/
def printChar (c : Char) : List Char :=
  if c = '"' then ['\\', '"']
  else if c = '\\' then ['\\', '\\']
  else if c = '\n' then ['\\', 'n']
  else if c = '\r' then ['\\', 'r']
  else if c = '\t' then ['\\', 't']
  else if c = '\x0c' then ['\\', 'f']
  else if c = '\x08' then ['\\', 'b']
  else if 32 ≤ c.toNat ∧ c.toNat ≤ 126 then [c]
  else if c.toNat < 65536 then escapeUnit c.toNat
  else escapeUnit (55296 + (c.toNat - 65536) / 1024) ++
    escapeUnit (56320 + (c.toNat - 65536) % 1024)

/-- The characters of a string up to and including the closing quote. -/
def printChars : List Char → List Char
  | [] => ['"']
  | c :: cs => printChar c ++ printChars cs

/-- The decimal text of an integer. -/
def printInt : ℤ → List Char
  | .ofNat n => Nat.toDigits 10 n
  | .negSucc n => '-' :: Nat.toDigits 10 (n + 1)

mutual

/-- The compact text of a value. -/
def print : Json → List Char
  | .null => ['n', 'u', 'l', 'l']
  | .bool true => ['t', 'r', 'u', 'e']
  | .bool false => ['f', 'a', 'l', 's', 'e']
  | .int n => printInt n
  | .float f => f.val
  | .str s => '"' :: printChars s.toList
  | .arr [] => ['[', ']']
  | .arr (v :: vs) => '[' :: (print v ++ printItems vs)
  | .obj [] => ['{', '}']
  | .obj ((k, v) :: fs) => '{' :: '"' :: (printChars k.toList ++ ':' :: (print v ++ printFields fs))

/-- The remaining items of an array, each after a comma, and the closing bracket. -/
def printItems : List Json → List Char
  | [] => [']']
  | v :: vs => ',' :: (print v ++ printItems vs)

/-- The remaining fields of an object, each after a comma, and the closing brace. -/
def printFields : List (String × Json) → List Char
  | [] => ['}']
  | (k, v) :: fs => ',' :: '"' :: (printChars k.toList ++ ':' :: (print v ++ printFields fs))

end

/-! ## Parsing -/

/-- Skip insignificant white space. -/
def skipWs : List Char → List Char
  | [] => []
  | c :: cs => if c = ' ' ∨ c = '\t' ∨ c = '\n' ∨ c = '\r' then skipWs cs else c :: cs

/-- The value of a hexadecimal digit of either case. -/
def hexVal (c : Char) : Option ℕ :=
  if c.isDigit then some (c.toNat - 48)
  else if 97 ≤ c.toNat ∧ c.toNat ≤ 102 then some (c.toNat - 87)
  else if 65 ≤ c.toNat ∧ c.toNat ≤ 70 then some (c.toNat - 55)
  else none

/-- Four hexadecimal digits. -/
def hex4 : List Char → Option (ℕ × List Char)
  | a :: b :: c :: d :: rest =>
    match hexVal a, hexVal b, hexVal c, hexVal d with
    | some a, some b, some c, some d => some (((a * 16 + b) * 16 + c) * 16 + d, rest)
    | _, _, _, _ => none
  | _ => none

/-- What follows a backslash inside a string; a high surrogate must be followed by the escape
of a low one. -/
def scanEscape : List Char → Option (Char × List Char)
  | '"' :: r => some ('"', r)
  | '\\' :: r => some ('\\', r)
  | '/' :: r => some ('/', r)
  | 'n' :: r => some ('\n', r)
  | 'r' :: r => some ('\r', r)
  | 't' :: r => some ('\t', r)
  | 'f' :: r => some ('\x0c', r)
  | 'b' :: r => some ('\x08', r)
  | 'u' :: r =>
    match hex4 r with
    | none => none
    | some (n, r) =>
      if 55296 ≤ n ∧ n < 56320 then
        match r with
        | '\\' :: 'u' :: r =>
          match hex4 r with
          | none => none
          | some (m, r) =>
            if 56320 ≤ m ∧ m < 57344 then
              some (Char.ofNat (65536 + (n - 55296) * 1024 + (m - 56320)), r)
            else none
        | _ => none
      else if 56320 ≤ n ∧ n < 57344 then none
      else some (Char.ofNat n, r)
  | _ => none

/-- The rest of a string after its opening quote. -/
def scanString : ℕ → List Char → Option (List Char × List Char)
  | 0, _ => none
  | _ + 1, [] => none
  | fuel + 1, c :: r =>
    if c = '"' then some ([], r)
    else if c = '\\' then
      match scanEscape r with
      | none => none
      | some (e, r) => (scanString fuel r).map fun (cs, r) => (e :: cs, r)
    else if c.toNat < 32 then none
    else (scanString fuel r).map fun (cs, r) => (c :: cs, r)

/-- The characters that may not follow a number: more digits after a leading zero, or more of
the fraction or exponent of a float. -/
def continuesNumber (c : Char) : Bool :=
  c.isDigit || c = '.' || c = 'e' || c = 'E' || c = '+' || c = '-'

/-- An unsigned decimal integer without superfluous leading zeros. -/
def scanNat (cs : List Char) : Option (ℕ × List Char) :=
  let digits := cs.takeWhile Char.isDigit
  let rest := cs.dropWhile Char.isDigit
  if digits = [] ∨ (digits.head? = some '0' ∧ digits.length ≠ 1) then none
  else if rest.head?.any continuesNumber then none
  else some (Nat.ofDigitChars 10 digits 0, rest)

/-- An integer literal. -/
def scanInt : List Char → Option (ℤ × List Char)
  | '-' :: r => (scanNat r).map fun (n, r) => (-(n : ℤ), r)
  | r => (scanNat r).map fun (n, r) => ((n : ℤ), r)

/-- A float literal, which must be the text written for a float. -/
def scanFloat (cs : List Char) : Option (FloatText × List Char) :=
  let text := cs.takeWhile continuesNumber
  if h : isFloatText text = true then some (⟨text, h⟩, cs.dropWhile continuesNumber) else none

/-- A number. -/
def scanNumber (cs : List Char) : Option (Json × List Char) :=
  match scanInt cs with
  | some (n, r) => some (.int n, r)
  | none => (scanFloat cs).map fun (f, r) => (.float f, r)

/-- Among fields with one key only the last is kept. -/
def keepLast : List (String × Json) → List (String × Json)
  | [] => []
  | f :: fs => if f.1 ∈ fs.map Prod.fst then keepLast fs else f :: keepLast fs

/-- The dictionary a list of parsed fields builds. -/
def dictOf (fs : List (String × Json)) : List (String × Json) := SortedBy.sortBy Prod.fst (keepLast fs)

mutual

/-- A value at the start of the text; the fuel bounds the nesting. -/
def parseValue : ℕ → List Char → Option (Json × List Char)
  | 0, _ => none
  | _ + 1, 'n' :: 'u' :: 'l' :: 'l' :: r => some (.null, r)
  | _ + 1, 't' :: 'r' :: 'u' :: 'e' :: r => some (.bool true, r)
  | _ + 1, 'f' :: 'a' :: 'l' :: 's' :: 'e' :: r => some (.bool false, r)
  | _ + 1, '"' :: r => (scanString (r.length + 1) r).map fun (s, r) => (.str (String.ofList s), r)
  | fuel + 1, '[' :: r =>
    match skipWs r with
    | ']' :: r => some (.arr [], r)
    | r =>
      match parseValue fuel r with
      | none => none
      | some (v, r) => (parseItems fuel r).map fun (vs, r) => (.arr (v :: vs), r)
  | fuel + 1, '{' :: r =>
    match skipWs r with
    | '}' :: r => some (.obj [], r)
    | r => (parseField fuel r).map fun (fs, r) => (.obj (dictOf fs), r)
  | _ + 1, r => scanNumber r

/-- The remaining items of an array. -/
def parseItems : ℕ → List Char → Option (List Json × List Char)
  | 0, _ => none
  | fuel + 1, r =>
    match skipWs r with
    | ']' :: r => some ([], r)
    | ',' :: r =>
      match parseValue fuel (skipWs r) with
      | none => none
      | some (v, r) => (parseItems fuel r).map fun (vs, r) => (v :: vs, r)
    | _ => none

/-- One field of an object and those after it. -/
def parseField : ℕ → List Char → Option (List (String × Json) × List Char)
  | 0, _ => none
  | fuel + 1, '"' :: r =>
    match scanString (r.length + 1) r with
    | none => none
    | some (k, r) =>
      match skipWs r with
      | ':' :: r =>
        match parseValue fuel (skipWs r) with
        | none => none
        | some (v, r) => (parseFields fuel r).map fun (fs, r) => ((String.ofList k, v) :: fs, r)
      | _ => none
  | _ + 1, _ => none

/-- The remaining fields of an object. -/
def parseFields : ℕ → List Char → Option (List (String × Json) × List Char)
  | 0, _ => none
  | fuel + 1, r =>
    match skipWs r with
    | '}' :: r => some ([], r)
    | ',' :: r => parseField fuel (skipWs r)
    | _ => none

end

end Json

/-- `json.dumps(value, sort_keys=True, separators=(",", ":"), ensure_ascii=True)`. -/
def dumps (v : Json) : String := String.ofList v.print

/-- `json.loads(text)`: one value with nothing but white space around it. -/
def loads (text : String) : Option Json :=
  match Json.parseValue (2 * text.toList.length + 2) (Json.skipWs text.toList) with
  | some (v, r) => if Json.skipWs r = [] then some v else none
  | none => none

end CreatidyKernel
