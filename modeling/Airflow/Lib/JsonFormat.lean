import Mathlib.Data.List.Basic
import Mathlib.Data.Nat.Basic

/-!
# JSON texts

The texts that Python's `json.dumps` writes, with its default separators and only ASCII characters,
and a parser for JSON texts. What is written is read back (`loads_dumps`), so that different values
have different texts (`dumps_injective`). A float is the text of a number that is no integer.
-/

namespace JsonFormat

/-! ## Numbers -/

/-- A character of a number, of `NaN` or of `Infinity`. -/
def isNumChar (c : Char) : Bool :=
  c.isDigit || c ∈ ['-', '+', '.', 'e', 'E'] || c ∈ "NaInfity".toList

/-- Decimal digits without a leading zero. -/
def isNatText (ds : List Char) : Bool :=
  ds.all Char.isDigit && (ds == ['0'] || ds.head?.any (· != '0'))

/-- The integer that a text is. -/
def intOf : List Char → Option Int
  | [] => none
  | c :: cs =>
    if c = '-' then if isNatText cs then some (-(Nat.ofDigitChars 10 cs 0 : Int)) else none
    else if isNatText (c :: cs) then some (Nat.ofDigitChars 10 (c :: cs) 0 : Int) else none

/-- `int.__repr__`. -/
def intText : Int → List Char
  | .ofNat n => Nat.toDigits 10 n
  | .negSucc n => '-' :: Nat.toDigits 10 (n + 1)

/-- An exponent, or nothing. -/
def isExponent : List Char → Bool
  | [] => true
  | c :: cs => (c == 'e' || c == 'E') &&
    let ds := if cs.head?.any fun c => c == '-' || c == '+' then cs.drop 1 else cs
    ds.all Char.isDigit && !ds.isEmpty

/-- A number with a fraction or an exponent, `NaN` or an infinity. -/
def isFloatText (t : List Char) : Bool :=
  t.all isNumChar && t.head?.any (fun c => c.isDigit || c ∈ ['-', 'N', 'I']) && (intOf t).isNone &&
    (t == "NaN".toList || t == "Infinity".toList || t == "-Infinity".toList ||
      let u := if t.head? == some '-' then t.drop 1 else t
      let rest := u.dropWhile Char.isDigit
      isNatText (u.takeWhile Char.isDigit) &&
        if rest.head? == some '.' then
          !((rest.drop 1).takeWhile Char.isDigit).isEmpty &&
            isExponent ((rest.drop 1).dropWhile Char.isDigit)
        else isExponent rest)

/-- The text of a float. -/
abbrev FloatText := { t : List Char // isFloatText t = true }

/-! ## Values -/

inductive Value where
  | null
  | bool (b : Bool)
  | int (i : Int)
  | float (x : FloatText)
  | str (s : String)
  | arr (l : List Value)
  | obj (items : List (String × Value))

/-! ## Writing -/

/-- `\uXXXX`. -/
def unicodeEscape (n : Nat) : List Char :=
  ['\\', 'u', (n / 4096 % 16).digitChar, (n / 256 % 16).digitChar, (n / 16 % 16).digitChar,
    (n % 16).digitChar]

/-- A character in a string, in ASCII. -/
def escapeChar (c : Char) : List Char :=
  if c = '"' then ['\\', '"']
  else if c = '\\' then ['\\', '\\']
  else if c = '\n' then ['\\', 'n']
  else if c = '\r' then ['\\', 'r']
  else if c = '\t' then ['\\', 't']
  else if c = '\x0c' then ['\\', 'f']
  else if c = '\x08' then ['\\', 'b']
  else if 0x20 ≤ c.toNat ∧ c.toNat ≤ 0x7e then [c]
  else if c.toNat < 0x10000 then unicodeEscape c.toNat
  else unicodeEscape (0xd800 + (c.toNat - 0x10000) / 1024) ++
    unicodeEscape (0xdc00 + (c.toNat - 0x10000) % 1024)

def dumpString (s : String) : List Char := '"' :: (s.toList.flatMap escapeChar ++ ['"'])

mutual

/-- `json.dumps`. -/
def dump : Value → List Char
  | .null => "null".toList
  | .bool b => if b then "true".toList else "false".toList
  | .int i => intText i
  | .float x => x.1
  | .str s => dumpString s
  | .arr [] => ['[', ']']
  | .arr (v :: l) => '[' :: (dump v ++ dumpRest l)
  | .obj [] => ['{', '}']
  | .obj ((k, v) :: items) => '{' :: (dumpString k ++ (':' :: ' ' :: (dump v ++ dumpItems items)))

/-- The further members of an array. -/
def dumpRest : List Value → List Char
  | [] => [']']
  | v :: l => ',' :: ' ' :: (dump v ++ dumpRest l)

/-- The further members of an object. -/
def dumpItems : List (String × Value) → List Char
  | [] => ['}']
  | (k, v) :: items =>
    ',' :: ' ' :: (dumpString k ++ (':' :: ' ' :: (dump v ++ dumpItems items)))

end

def dumps (v : Value) : String := String.ofList (dump v)

/-! ## Reading -/

def isBlank (c : Char) : Bool := c == ' ' || c == '\t' || c == '\n' || c == '\r'

def skip (cs : List Char) : List Char := cs.dropWhile isBlank

def hexVal (c : Char) : Option Nat :=
  if c.isDigit then some (c.toNat - 48)
  else if 'a' ≤ c ∧ c ≤ 'f' then some (c.toNat - 87)
  else if 'A' ≤ c ∧ c ≤ 'F' then some (c.toNat - 55)
  else none

def hex4 : List Char → Option (Nat × List Char)
  | a :: b :: c :: d :: cs => do
    return (4096 * (← hexVal a) + 256 * (← hexVal b) + 16 * (← hexVal c) + (← hexVal d), cs)
  | _ => none

/-- The second half of a code point. -/
def parseLow (high : Nat) : List Char → Option (Char × List Char)
  | '\\' :: 'u' :: cs => (hex4 cs).bind fun p =>
    if 0xdc00 ≤ p.1 ∧ p.1 < 0xe000 then
      some (Char.ofNat (0x10000 + 1024 * (high - 0xd800) + (p.1 - 0xdc00)), p.2)
    else none
  | _ => none

/-- What follows `\u`: a code point, or the first half of one. -/
def parseUnicode (cs : List Char) : Option (Char × List Char) :=
  (hex4 cs).bind fun p =>
    if 0xd800 ≤ p.1 ∧ p.1 < 0xdc00 then parseLow p.1 p.2
    else if 0xdc00 ≤ p.1 ∧ p.1 < 0xe000 then none
    else some (Char.ofNat p.1, p.2)

/-- What follows a backslash. -/
def parseEscape : List Char → Option (Char × List Char)
  | [] => none
  | e :: cs =>
    if e = 'u' then parseUnicode cs
    else if e = '"' ∨ e = '\\' ∨ e = '/' then some (e, cs)
    else if e = 'n' then some ('\n', cs)
    else if e = 'r' then some ('\r', cs)
    else if e = 't' then some ('\t', cs)
    else if e = 'f' then some ('\x0c', cs)
    else if e = 'b' then some ('\x08', cs)
    else none

/-- The characters of a string up to its closing quote, at most `fuel` of them. -/
def parseChars : Nat → List Char → Option (List Char × List Char)
  | 0, _ => none
  | _ + 1, [] => none
  | fuel + 1, c :: cs =>
    if c = '"' then some ([], cs)
    else if c = '\\' then
      (parseEscape cs).bind fun p => (parseChars fuel p.2).map fun q => (p.1 :: q.1, q.2)
    else if c.toNat < 0x20 then none
    else (parseChars fuel cs).map fun q => (c :: q.1, q.2)

/-- A string after its opening quote. -/
def parseString (cs : List Char) : Option (String × List Char) :=
  (parseChars (cs.length + 1) cs).map fun p => (String.ofList p.1, p.2)

def parseNumber (cs : List Char) : Option (Value × List Char) :=
  match intOf (cs.takeWhile isNumChar) with
  | some i => some (.int i, cs.dropWhile isNumChar)
  | none =>
    if h : isFloatText (cs.takeWhile isNumChar) = true then
      some (.float ⟨cs.takeWhile isNumChar, h⟩, cs.dropWhile isNumChar)
    else none

/-- The rest of a literal. -/
def expect (lit : List Char) (v : Value) (cs : List Char) : Option (Value × List Char) :=
  if lit.isPrefixOf cs then some (v, cs.drop lit.length) else none

/-- The name of a member and the colon. -/
def parseKey (cs : List Char) : Option (String × List Char) :=
  match skip cs with
  | '"' :: cs => (parseString cs).bind fun p =>
    match skip p.2 with
    | ':' :: cs => some (p.1, cs)
    | _ => none
  | _ => none

mutual

/-- A value at the start of a text, of a depth of at most `fuel`. -/
def parseValue : Nat → List Char → Option (Value × List Char)
  | 0, _ => none
  | fuel + 1, cs =>
    match skip cs with
    | [] => none
    | c :: cs =>
      if c = '"' then (parseString cs).map fun p => (.str p.1, p.2)
      else if c = '[' then
        if (skip cs).head? = some ']' then some (.arr [], (skip cs).drop 1)
        else (parseValue fuel cs).bind fun p =>
          (parseRest fuel p.2).map fun q => (.arr (p.1 :: q.1), q.2)
      else if c = '{' then
        if (skip cs).head? = some '}' then some (.obj [], (skip cs).drop 1)
        else (parseKey cs).bind fun k => (parseValue fuel k.2).bind fun p =>
          (parseItems fuel p.2).map fun q => (.obj ((k.1, p.1) :: q.1), q.2)
      else if c = 'n' then expect "ull".toList .null cs
      else if c = 't' then expect "rue".toList (.bool true) cs
      else if c = 'f' then expect "alse".toList (.bool false) cs
      else parseNumber (c :: cs)

/-- The further members of an array. -/
def parseRest : Nat → List Char → Option (List Value × List Char)
  | 0, _ => none
  | fuel + 1, cs =>
    match skip cs with
    | ']' :: cs => some ([], cs)
    | ',' :: cs => (parseValue fuel cs).bind fun p =>
      (parseRest fuel p.2).map fun q => (p.1 :: q.1, q.2)
    | _ => none

/-- The further members of an object. -/
def parseItems : Nat → List Char → Option (List (String × Value) × List Char)
  | 0, _ => none
  | fuel + 1, cs =>
    match skip cs with
    | '}' :: cs => some ([], cs)
    | ',' :: cs => (parseKey cs).bind fun k => (parseValue fuel k.2).bind fun p =>
      (parseItems fuel p.2).map fun q => ((k.1, p.1) :: q.1, q.2)
    | _ => none

end

/-- `json.loads`. -/
def loads (s : String) : Option Value :=
  (parseValue (s.toList.length + 1) s.toList).bind fun p =>
    if (skip p.2).isEmpty then some p.1 else none

/-! ## Numbers are read back -/

theorem head?_toDigits {n : Nat} (hn : 0 < n) : ∃ d ds, Nat.toDigits 10 n = d :: ds ∧ d ≠ '0' := by
  induction n using Nat.strongRecOn with
  | ind n ih =>
    by_cases hsmall : n < 10
    · refine ⟨_, [], Nat.toDigits_of_lt_base hsmall, ?_⟩
      have hdigits : ∀ d < 10, 0 < d → Nat.digitChar d ≠ '0' := by decide
      exact hdigits n hsmall hn
    · obtain ⟨d, ds, hds, hd⟩ := ih (n / 10) (by omega) (by omega)
      rw [Nat.toDigits_of_base_le (by omega) (by omega), hds]
      exact ⟨d, _, rfl, hd⟩

theorem isNatText_toDigits (n : Nat) : isNatText (Nat.toDigits 10 n) = true := by
  have hall : (Nat.toDigits 10 n).all Char.isDigit = true :=
    List.all_eq_true.mpr fun c hc => Nat.isDigit_of_mem_toDigits (by omega) (by omega) hc
  rw [isNatText, hall, Bool.true_and]
  cases n with
  | zero => rfl
  | succ n =>
    obtain ⟨d, ds, hds, hd⟩ := head?_toDigits (Nat.succ_pos n)
    simp [hds, hd]

theorem exists_toDigits (n : Nat) : ∃ d ds, Nat.toDigits 10 n = d :: ds ∧ d.isDigit = true := by
  cases hds : Nat.toDigits 10 n with
  | nil => exact absurd hds Nat.toDigits_ne_nil
  | cons d ds =>
    refine ⟨d, ds, rfl, Nat.isDigit_of_mem_toDigits (b := 10) (n := n) (by omega) (by omega) ?_⟩
    rw [hds]
    exact List.mem_cons_self

theorem intOf_intText (i : Int) : intOf (intText i) = some i := by
  cases i with
  | ofNat n =>
    obtain ⟨d, ds, hds, hd⟩ := exists_toDigits n
    have hminus : d ≠ '-' := by
      intro h
      rw [h] at hd
      exact absurd hd (by decide)
    have htext := isNatText_toDigits n
    have hvalue : Nat.ofDigitChars 10 (Nat.toDigits 10 n) 0 = n := Nat.ofDigitChars_ten_toDigits
    rw [hds] at htext hvalue
    rw [intText, hds, intOf, if_neg hminus, if_pos htext, hvalue]
    rfl
  | negSucc n =>
    rw [intText, intOf, if_pos rfl, if_pos (isNatText_toDigits _), Nat.ofDigitChars_ten_toDigits]
    rfl

theorem isNumChar_of_isDigit {c : Char} (h : c.isDigit = true) : isNumChar c = true := by
  simp [isNumChar, h]

theorem all_isNumChar_intText (i : Int) : (intText i).all isNumChar = true := by
  have hdigits : ∀ n, (Nat.toDigits 10 n).all isNumChar = true := fun n =>
    List.all_eq_true.mpr fun c hc =>
      isNumChar_of_isDigit (Nat.isDigit_of_mem_toDigits (by omega) (by omega) hc)
  cases i with
  | ofNat n => exact hdigits n
  | negSucc n =>
    rw [intText, List.all_cons, hdigits]
    rfl

/-- What follows a number does not continue it. -/
def Ends (rest : List Char) : Prop := ∀ c ∈ rest.head?, isNumChar c = false

theorem takeWhile_append {t rest : List Char} (ht : t.all isNumChar = true) (hrest : Ends rest) :
    (t ++ rest).takeWhile isNumChar = t := by
  rw [List.takeWhile_append_of_pos (List.all_eq_true.mp ht)]
  cases rest with
  | nil => simp
  | cons c cs =>
    have hc : isNumChar c = false := hrest c rfl
    simp [hc]

theorem dropWhile_append {t rest : List Char} (ht : t.all isNumChar = true) (hrest : Ends rest) :
    (t ++ rest).dropWhile isNumChar = rest := by
  rw [List.dropWhile_append_of_pos (List.all_eq_true.mp ht)]
  cases rest with
  | nil => rfl
  | cons c cs =>
    have hc : isNumChar c = false := hrest c rfl
    simp [hc]

theorem parseNumber_int {rest : List Char} (i : Int) (hrest : Ends rest) :
    parseNumber (intText i ++ rest) = some (.int i, rest) := by
  have ht := all_isNumChar_intText i
  rw [parseNumber, takeWhile_append ht hrest, dropWhile_append ht hrest, intOf_intText]

theorem FloatText.spec (x : FloatText) : x.1.all isNumChar = true ∧
    x.1.head?.any (fun c => c.isDigit || c ∈ ['-', 'N', 'I']) = true ∧ intOf x.1 = none := by
  have h := x.2
  simp only [isFloatText, Bool.and_eq_true, Option.isNone_iff_eq_none] at h
  exact ⟨h.1.1.1, h.1.1.2, h.1.2⟩

theorem parseNumber_float {rest : List Char} (x : FloatText) (hrest : Ends rest) :
    parseNumber (x.1 ++ rest) = some (.float x, rest) := by
  obtain ⟨ht, -, hint⟩ := x.spec
  simp only [parseNumber, takeWhile_append ht hrest, dropWhile_append ht hrest, hint]
  rw [dif_pos x.2]

/-! ## Strings are read back -/

theorem hexVal_digitChar : ∀ d < 16, hexVal (Nat.digitChar d) = some d := by decide

theorem hex4_unicodeEscape {n : Nat} (hn : n < 0x10000) (rest : List Char) :
    hex4 ((unicodeEscape n).drop 2 ++ rest) = some (n, rest) := by
  have h1 := hexVal_digitChar (n / 4096 % 16) (Nat.mod_lt _ (by omega))
  have h2 := hexVal_digitChar (n / 256 % 16) (Nat.mod_lt _ (by omega))
  have h3 := hexVal_digitChar (n / 16 % 16) (Nat.mod_lt _ (by omega))
  have h4 := hexVal_digitChar (n % 16) (Nat.mod_lt _ (by omega))
  have hsum : 4096 * (n / 4096 % 16) + 256 * (n / 256 % 16) + 16 * (n / 16 % 16) + n % 16 = n := by
    omega
  simp only [unicodeEscape, List.drop_succ_cons, List.drop_zero, List.cons_append, List.nil_append,
    hex4, h1, h2, h3, h4, bind, Option.bind, pure, hsum]

theorem toNat_valid (c : Char) : c.toNat < 0xd800 ∨ (0xe000 ≤ c.toNat ∧ c.toNat < 0x110000) := by
  have hvalid : c.toNat < 0xd800 ∨ 0xdfff < c.toNat ∧ c.toNat < 0x110000 := c.valid
  omega

/-- A character of the basic plane. -/
theorem parseUnicode_basic {c : Char} (hc : c.toNat < 0x10000) (rest : List Char) :
    parseUnicode ((unicodeEscape c.toNat).drop 2 ++ rest) = some (c, rest) := by
  have hvalid := toNat_valid c
  rw [parseUnicode, hex4_unicodeEscape hc, Option.bind_some, if_neg (by omega), if_neg (by omega),
    Char.ofNat_toNat]

theorem parseLow_unicodeEscape {high low : Nat} (hlow : 0xdc00 ≤ low ∧ low < 0xe000)
    (rest : List Char) : parseLow high (unicodeEscape low ++ rest) =
      some (Char.ofNat (0x10000 + 1024 * (high - 0xd800) + (low - 0xdc00)), rest) := by
  have htext : unicodeEscape low ++ rest = '\\' :: 'u' :: ((unicodeEscape low).drop 2 ++ rest) :=
    rfl
  rw [htext, parseLow, hex4_unicodeEscape (by omega), Option.bind_some, if_pos hlow]

/-- A character that is written as two halves. -/
theorem parseUnicode_halves {c : Char} (hc : 0x10000 ≤ c.toNat) (rest : List Char) :
    parseUnicode ((unicodeEscape (0xd800 + (c.toNat - 0x10000) / 1024)).drop 2 ++
      (unicodeEscape (0xdc00 + (c.toNat - 0x10000) % 1024) ++ rest)) = some (c, rest) := by
  have hvalid := toNat_valid c
  have hsum : 0x10000 + 1024 * (0xd800 + (c.toNat - 0x10000) / 1024 - 0xd800) +
      (0xdc00 + (c.toNat - 0x10000) % 1024 - 0xdc00) = c.toNat := by omega
  rw [parseUnicode, hex4_unicodeEscape (by omega), Option.bind_some, if_pos (by omega),
    parseLow_unicodeEscape (by omega), hsum, Char.ofNat_toNat]

theorem parseChars_escape {c : Char} {cs rest : List Char} (fuel : Nat)
    (h : parseEscape cs = some (c, rest)) :
    parseChars (fuel + 1) ('\\' :: cs) = (parseChars fuel rest).map fun q => (c :: q.1, q.2) := by
  rw [parseChars, if_neg (by decide), if_pos rfl, h]
  rfl

theorem parseChars_escapeChar (c : Char) (rest : List Char) (fuel : Nat) :
    parseChars (fuel + 1) (escapeChar c ++ rest) =
      (parseChars fuel rest).map fun q => (c :: q.1, q.2) := by
  unfold escapeChar
  split
  case isTrue h =>
    subst h
    exact parseChars_escape fuel rfl
  case isFalse hquote =>
  split
  case isTrue h =>
    subst h
    exact parseChars_escape fuel rfl
  case isFalse hslash =>
  split
  case isTrue h =>
    subst h
    exact parseChars_escape fuel rfl
  split
  case isTrue h =>
    subst h
    exact parseChars_escape fuel rfl
  split
  case isTrue h =>
    subst h
    exact parseChars_escape fuel rfl
  split
  case isTrue h =>
    subst h
    exact parseChars_escape fuel rfl
  split
  case isTrue h =>
    subst h
    exact parseChars_escape fuel rfl
  split
  case isTrue h =>
    rw [List.singleton_append, parseChars, if_neg hquote, if_neg hslash, if_neg (by omega)]
  split
  case isTrue h => exact parseChars_escape fuel (parseUnicode_basic h rest)
  case isFalse h =>
    rw [List.append_assoc]
    exact parseChars_escape fuel (parseUnicode_halves (by omega) rest)

theorem parseChars_flatMap (cs rest : List Char) {fuel : Nat} (hfuel : cs.length < fuel) :
    parseChars fuel (cs.flatMap escapeChar ++ '"' :: rest) = some (cs, rest) := by
  induction cs generalizing fuel with
  | nil =>
    obtain ⟨fuel, rfl⟩ := Nat.exists_eq_add_of_lt hfuel
    rfl
  | cons c cs ih =>
    cases fuel with
    | zero => exact absurd hfuel (Nat.not_lt_zero _)
    | succ fuel =>
      rw [List.flatMap_cons, List.append_assoc, parseChars_escapeChar,
        ih (Nat.lt_of_succ_lt_succ hfuel)]
      rfl

theorem length_pos_escapeChar (c : Char) : 0 < (escapeChar c).length := by
  unfold escapeChar unicodeEscape
  repeat' split
  all_goals simp

theorem length_le_flatMap (cs : List Char) : cs.length ≤ (cs.flatMap escapeChar).length := by
  induction cs with
  | nil => exact Nat.le_refl _
  | cons c cs ih =>
    have := length_pos_escapeChar c
    rw [List.flatMap_cons, List.length_append, List.length_cons]
    omega

/-- **What is written for a string is read back.** -/
theorem parseString_dumpString (s : String) (rest : List Char) :
    parseString ((dumpString s).drop 1 ++ rest) = some (s, rest) := by
  have hlength := length_le_flatMap s.toList
  have htext : (dumpString s).drop 1 ++ rest = s.toList.flatMap escapeChar ++ '"' :: rest := by
    simp [dumpString]
  rw [parseString, htext, parseChars_flatMap _ _ (by rw [List.length_append]; omega)]
  simp

/-! ## Values are read back -/

theorem dump_str (s : String) : dump (.str s) = '"' :: (dumpString s).drop 1 := by
  rw [dump, dumpString, List.drop_one, List.tail_cons]

theorem dumpString_append (s : String) (rest : List Char) :
    dumpString s ++ rest = '"' :: ((dumpString s).drop 1 ++ rest) := by
  rw [dumpString, List.drop_one, List.tail_cons, List.cons_append]

theorem skip_cons {c : Char} (hc : isBlank c = false) (cs : List Char) :
    skip (c :: cs) = c :: cs := by
  rw [skip, List.dropWhile_cons_of_neg (by simp [hc])]

theorem skip_space (cs : List Char) : skip (' ' :: cs) = skip cs := by
  rw [skip, List.dropWhile_cons_of_pos (by decide)]
  rfl

/-- The first character of a number. -/
def isNumHead (c : Char) : Bool := c.isDigit || c ∈ ['-', 'N', 'I']

theorem isNumHead_spec {c : Char} (h : isNumHead c = true) :
    isBlank c = false ∧ c ≠ '"' ∧ c ≠ '[' ∧ c ≠ ']' ∧ c ≠ '{' ∧ c ≠ 'n' ∧ c ≠ 't' ∧ c ≠ 'f' := by
  refine ⟨?_, ?_, ?_, ?_, ?_, ?_, ?_, ?_⟩
  · cases hblank : isBlank c with
    | false => rfl
    | true =>
      simp only [isBlank, Bool.or_eq_true, beq_iff_eq] at hblank
      obtain ((rfl | rfl) | rfl) | rfl := hblank <;> exact absurd h (by decide)
  all_goals
    rintro rfl
    exact absurd h (by decide)

theorem exists_intText (i : Int) : ∃ c cs, intText i = c :: cs ∧ isNumHead c = true := by
  cases i with
  | ofNat n =>
    obtain ⟨d, ds, hds, hd⟩ := exists_toDigits n
    exact ⟨d, ds, hds, by rw [isNumHead, hd, Bool.true_or]⟩
  | negSucc n => exact ⟨'-', _, rfl, rfl⟩

theorem FloatText.exists_cons (x : FloatText) : ∃ c cs, x.1 = c :: cs ∧ isNumHead c = true := by
  obtain ⟨-, hhead, -⟩ := x.spec
  cases hx : x.1 with
  | nil =>
    rw [hx] at hhead
    exact absurd hhead (by decide)
  | cons c cs =>
    rw [hx] at hhead
    exact ⟨c, cs, rfl, hhead⟩

/-- How the text of a value begins. -/
theorem exists_dump (v : Value) : ∃ c cs, dump v = c :: cs ∧ isBlank c = false ∧ c ≠ ']' := by
  have hnumber : ∀ {t : List Char}, (∃ c cs, t = c :: cs ∧ isNumHead c = true) →
      ∃ c cs, t = c :: cs ∧ isBlank c = false ∧ c ≠ ']' := by
    rintro t ⟨c, cs, ht, hc⟩
    obtain ⟨hblank, -, -, hclose, -⟩ := isNumHead_spec hc
    exact ⟨c, cs, ht, hblank, hclose⟩
  cases v with
  | null => exact ⟨'n', "ull".toList, by decide +kernel, by decide, by decide⟩
  | bool b =>
    cases b with
    | false => exact ⟨'f', "alse".toList, by decide +kernel, by decide, by decide⟩
    | true => exact ⟨'t', "rue".toList, by decide +kernel, by decide, by decide⟩
  | int i => rw [dump]; exact hnumber (exists_intText i)
  | float x => rw [dump]; exact hnumber x.exists_cons
  | str s => exact ⟨'"', _, dump_str s, by decide, by decide⟩
  | arr l =>
    cases l with
    | nil => exact ⟨'[', [']'], by rw [dump], by decide, by decide⟩
    | cons v l => exact ⟨'[', _, by rw [dump], by decide, by decide⟩
  | obj items =>
    cases items with
    | nil => exact ⟨'{', ['}'], by rw [dump], by decide, by decide⟩
    | cons item items => exact ⟨'{', _, by rw [dump], by decide, by decide⟩

theorem ends_cons {c : Char} (hc : isNumChar c = false) (cs : List Char) : Ends (c :: cs) := by
  intro d hd
  obtain rfl : c = d := by simpa using hd
  exact hc

theorem ends_dumpRest (l : List Value) (rest : List Char) : Ends (dumpRest l ++ rest) := by
  cases l with
  | nil => exact ends_cons (c := ']') (by decide +kernel) rest
  | cons v l => rw [dumpRest]; exact ends_cons (c := ',') (by decide +kernel) _

theorem ends_dumpItems (items : List (String × Value)) (rest : List Char) :
    Ends (dumpItems items ++ rest) := by
  cases items with
  | nil => exact ends_cons (c := '}') (by decide +kernel) rest
  | cons item items => rw [dumpItems]; exact ends_cons (c := ',') (by decide +kernel) _

theorem parseValue_number {c : Char} {cs : List Char} (fuel : Nat) (hc : isNumHead c = true) :
    parseValue (fuel + 1) (c :: cs) = parseNumber (c :: cs) := by
  obtain ⟨hblank, hquote, hopen, -, hbrace, hn, ht, hf⟩ := isNumHead_spec hc
  rw [parseValue, skip_cons hblank]
  simp only [if_neg hquote, if_neg hopen, if_neg hbrace, if_neg hn, if_neg ht, if_neg hf]

theorem parseValue_space (fuel : Nat) (cs : List Char) :
    parseValue fuel (' ' :: cs) = parseValue fuel cs := by
  cases fuel with
  | zero => rw [parseValue, parseValue]
  | succ fuel => rw [parseValue, parseValue, skip_space]

theorem parseKey_dumpString (k : String) (rest : List Char) :
    parseKey (dumpString k ++ (':' :: rest)) = some (k, rest) := by
  rw [parseKey, dumpString_append, skip_cons (by decide)]
  simp only [parseString_dumpString, Option.bind_some, skip_cons (c := ':') (by decide)]

theorem parseKey_space (cs : List Char) : parseKey (' ' :: cs) = parseKey cs := by
  rw [parseKey, parseKey, skip_space]

mutual

/-- **What is written for a value is read back.** -/
theorem parseValue_dump : ∀ (v : Value) (fuel : Nat) (rest : List Char),
    (dump v).length ≤ fuel → Ends rest → parseValue fuel (dump v ++ rest) = some (v, rest)
  | v, 0, _, hfuel, _ => by
    obtain ⟨c, cs, hv, -⟩ := exists_dump v
    rw [hv] at hfuel
    exact absurd hfuel (Nat.not_succ_le_zero _)
  | .null, fuel + 1, rest, _, _ => rfl
  | .bool false, fuel + 1, rest, _, _ => rfl
  | .bool true, fuel + 1, rest, _, _ => rfl
  | .int i, fuel + 1, rest, _, hrest => by
    have hnumber := parseNumber_int i hrest
    obtain ⟨c, cs, hi, hc⟩ := exists_intText i
    rw [hi, List.cons_append] at hnumber
    rw [dump, hi, List.cons_append, parseValue_number fuel hc, hnumber]
  | .float x, fuel + 1, rest, _, hrest => by
    have hnumber := parseNumber_float x hrest
    obtain ⟨c, cs, hx, hc⟩ := x.exists_cons
    rw [hx, List.cons_append] at hnumber
    rw [dump, hx, List.cons_append, parseValue_number fuel hc, hnumber]
  | .str s, fuel + 1, rest, _, _ => by
    rw [dump_str, List.cons_append, parseValue, skip_cons (by decide)]
    simp only [if_pos, parseString_dumpString, Option.map_some]
  | .arr [], fuel + 1, rest, _, _ => rfl
  | .arr (v :: l), fuel + 1, rest, hfuel, hrest => by
    rw [dump, List.length_cons, List.length_append] at hfuel
    have hv := parseValue_dump v fuel (dumpRest l ++ rest) (by omega)
      (ends_dumpRest l rest)
    have hl := parseRest_dumpRest l fuel rest (by omega)
    obtain ⟨c, cs, hdump, hblank, hclose⟩ := exists_dump v
    have hhead : (skip (dump v ++ (dumpRest l ++ rest))).head? ≠ some ']' := by
      rw [hdump, List.cons_append, skip_cons hblank]
      simpa using hclose
    rw [dump, List.cons_append, List.append_assoc, parseValue, skip_cons (by decide)]
    simp only [if_neg (show ¬ '[' = '"' by decide), if_true, if_neg hhead, hv, Option.bind_some, hl,
      Option.map_some]
  | .obj [], fuel + 1, rest, _, _ => rfl
  | .obj ((k, v) :: items), fuel + 1, rest, hfuel, hrest => by
    simp only [dump, List.length_cons, List.length_append] at hfuel
    have hv := parseValue_dump v fuel (dumpItems items ++ rest) (by omega)
      (ends_dumpItems items rest)
    have hitems := parseItems_dumpItems items fuel rest (by omega)
    have hkey := parseKey_dumpString k (' ' :: (dump v ++ (dumpItems items ++ rest)))
    have hhead : (skip (dumpString k ++
        (':' :: ' ' :: (dump v ++ (dumpItems items ++ rest))))).head? ≠ some '}' := by
      rw [dumpString_append, skip_cons (by decide)]
      simp
    simp only [dump, List.cons_append, List.append_assoc, parseValue]
    rw [skip_cons (by decide)]
    simp only [if_neg (show ¬ '{' = '"' by decide), if_neg (show ¬ '{' = '[' by decide), if_true,
      if_neg hhead, hkey, Option.bind_some, parseValue_space, hv, hitems, Option.map_some]

theorem parseRest_dumpRest : ∀ (l : List Value) (fuel : Nat) (rest : List Char),
    (dumpRest l).length ≤ fuel → parseRest fuel (dumpRest l ++ rest) = some (l, rest)
  | [], 0, _, hfuel => absurd hfuel (Nat.not_succ_le_zero _)
  | _ :: _, 0, _, hfuel => absurd hfuel (Nat.not_succ_le_zero _)
  | [], fuel + 1, rest, _ => rfl
  | v :: l, fuel + 1, rest, hfuel => by
    simp only [dumpRest, List.length_cons, List.length_append] at hfuel
    have hv := parseValue_dump v fuel (dumpRest l ++ rest) (by omega)
      (ends_dumpRest l rest)
    have hl := parseRest_dumpRest l fuel rest (by omega)
    simp only [dumpRest, List.cons_append, List.append_assoc, parseRest]
    rw [skip_cons (by decide)]
    simp only [parseValue_space, hv, Option.bind_some, hl, Option.map_some]

theorem parseItems_dumpItems : ∀ (items : List (String × Value)) (fuel : Nat) (rest : List Char),
    (dumpItems items).length ≤ fuel →
      parseItems fuel (dumpItems items ++ rest) = some (items, rest)
  | [], 0, _, hfuel => absurd hfuel (Nat.not_succ_le_zero _)
  | (_, _) :: _, 0, _, hfuel => absurd hfuel (Nat.not_succ_le_zero _)
  | [], fuel + 1, rest, _ => rfl
  | (k, v) :: items, fuel + 1, rest, hfuel => by
    simp only [dumpItems, List.length_cons, List.length_append] at hfuel
    have hv := parseValue_dump v fuel (dumpItems items ++ rest) (by omega)
      (ends_dumpItems items rest)
    have hitems := parseItems_dumpItems items fuel rest (by omega)
    simp only [dumpItems, List.cons_append, List.append_assoc, parseItems]
    rw [skip_cons (by decide)]
    simp only [parseKey_space, parseKey_dumpString, Option.bind_some, parseValue_space, hv, hitems,
      Option.map_some]

end

/-- **`json.loads` after `json.dumps`.** -/
theorem loads_dumps (v : Value) : loads (dumps v) = some v := by
  have hv := parseValue_dump v ((dump v).length + 1) [] (by omega) (by simp [Ends])
  rw [List.append_nil] at hv
  rw [loads, dumps, String.toList_ofList, hv]
  rfl

/-- Different values have different texts. -/
theorem dumps_injective {v w : Value} (h : dumps v = dumps w) : v = w := by
  have hv := loads_dumps v
  rw [h, loads_dumps] at hv
  exact (Option.some.inj hv).symm

end JsonFormat
