-- What `json.dumps` writes, `json.loads` reads back: strings and numbers first, then values with
-- any separators that a reader takes for a comma and a colon.
import Mathlib.Data.List.TakeWhile
import UniAgent.JsonReader

namespace uni_agent.Json

variable {floatRepr : PyFloat → String} {floatOf : String → PyFloat}

/-! ## Strings -/

theorem hexValue?_hexDigit : ∀ n < 16, hexValue? (hexDigit n) = some n := by decide

theorem readUnicode_control {n : Nat} (hn : n < 32) (rest : List Char) :
    readUnicode ('0' :: '0' :: hexDigit (n / 16) :: hexDigit (n % 16) :: rest) =
      some (Char.ofNat n, rest) := by
  have hzero : hexValue? '0' = some 0 := by decide
  have hvalue : ((0 * 16 + 0) * 16 + n / 16) * 16 + n % 16 = n := by omega
  unfold readUnicode readHex4
  simp only [hzero, hexValue?_hexDigit (n / 16) (by omega),
    hexValue?_hexDigit (n % 16) (by omega), Option.bind_eq_bind, Option.bind_some, Option.pure_def,
    hvalue]
  rw [if_neg (by omega), if_neg (by omega)]

/-- An escaped character is read as the character. -/
theorem readString_escapeChar (fuel : Nat) (c : Char) (rest : List Char) :
    readString (fuel + 1) (escapeChar c ++ rest) =
      (readString fuel rest).map (fun read => (c :: read.1, read.2)) := by
  have hsimple : ∀ e, e ≠ 'u' → simpleEscapes.lookup e = some c →
      readString (fuel + 1) ('\\' :: e :: rest) =
        (readString fuel rest).map (fun read => (c :: read.1, read.2)) := by
    intro e hu hlookup
    have hescape : readEscape (e :: rest) = some (c, rest) := by
      unfold readEscape
      split
      · rename_i heq
        cases heq
      · rename_i heq
        cases heq
        exact absurd rfl hu
      · rename_i heq
        cases heq
        simp [hlookup]
    simp only [readString, Char.reduceEq, if_false, if_true, hescape,
      Option.bind_eq_bind, Option.bind_some]
    cases readString fuel rest <;> rfl
  unfold escapeChar
  split_ifs with h1 h2 h3 h4 h5 h6 h7 h8
  · exact hsimple '"' (by decide) (by rw [h1]; rfl)
  · exact hsimple '\\' (by decide) (by rw [h2]; rfl)
  · exact hsimple 'n' (by decide) (by rw [h3]; rfl)
  · exact hsimple 'r' (by decide) (by rw [h4]; rfl)
  · exact hsimple 't' (by decide) (by rw [h5]; rfl)
  · exact hsimple 'b' (by decide) (by rw [← Char.ofNat_toNat c, h6]; rfl)
  · exact hsimple 'f' (by decide) (by rw [← Char.ofNat_toNat c, h7]; rfl)
  · simp only [readString, List.cons_append, List.nil_append, Char.reduceEq, if_false, if_true,
      readEscape, readUnicode_control h8, Char.ofNat_toNat, Option.bind_eq_bind, Option.bind_some]
    cases readString fuel rest <;> rfl
  · simp only [readString, List.cons_append, List.nil_append, h1, h2, h8, if_false,
      Option.bind_eq_bind]
    cases readString fuel rest <;> rfl

theorem readString_escaped (cs rest : List Char) {fuel : Nat} (hfuel : cs.length < fuel) :
    readString fuel (cs.flatMap escapeChar ++ '"' :: rest) = some (cs, rest) := by
  induction cs generalizing fuel with
  | nil =>
    obtain ⟨fuel, rfl⟩ : ∃ n, fuel = n + 1 := ⟨fuel - 1, by simp at hfuel; omega⟩
    simp [readString]
  | cons c cs ih =>
    obtain ⟨fuel, rfl⟩ : ∃ n, fuel = n + 1 := ⟨fuel - 1, by simp at hfuel; omega⟩
    rw [List.flatMap_cons, List.append_assoc, readString_escapeChar,
      ih (by simp only [List.length_cons] at hfuel; omega)]
    rfl

theorem escapeChar_length_pos (c : Char) : 0 < (escapeChar c).length := by
  unfold escapeChar
  split_ifs <;> simp

theorem length_le_escaped (cs : List Char) : cs.length ≤ (cs.flatMap escapeChar).length := by
  induction cs with
  | nil => simp
  | cons c cs ih =>
    have := escapeChar_length_pos c
    rw [List.flatMap_cons, List.length_append, List.length_cons]
    omega

theorem toList_quoted (s : String) :
    (quoted s).toList = '"' :: (s.toList.flatMap escapeChar ++ ['"']) := by
  simp [quoted]

/-! ## Numbers -/

/-- Whatever can stand behind a number does not go on with it. -/
def EndsNumber (rest : List Char) : Prop :=
  ∀ c ∈ rest.head?, c.isDigit = false ∧ c ≠ '.' ∧ c ≠ 'e' ∧ c ≠ 'E' ∧ c ≠ '+' ∧ c ≠ '-'

theorem endsNumber_nil : EndsNumber [] := by simp [EndsNumber]

/-- What a part of a number reads does not change with what follows the number. -/
def Stops (part : List Char → List Char × List Char) : Prop :=
  ∀ cs rest, EndsNumber rest → part (cs ++ rest) = ((part cs).1, (part cs).2 ++ rest)

theorem readDigits_append (cs : List Char) {rest : List Char}
    (hrest : ∀ c ∈ rest.head?, c.isDigit = false) :
    readDigits (cs ++ rest) = ((readDigits cs).1, (readDigits cs).2 ++ rest) := by
  unfold readDigits
  induction cs with
  | nil =>
    cases rest with
    | nil => rfl
    | cons c rest => simp [hrest c (by simp)]
  | cons c cs ih =>
    simp only [Prod.mk.injEq] at ih ⊢
    by_cases hc : c.isDigit = true
    · simp [hc, ih.1, ih.2]
    · simp [hc]

theorem stops_readDigits : Stops readDigits :=
  fun cs _ hrest => readDigits_append cs (fun c hc => (hrest c hc).1)

theorem stops_readSign : Stops readSign := by
  intro cs rest hrest
  cases cs with
  | nil =>
    cases rest with
    | nil => rfl
    | cons c rest =>
      have hc := (hrest c (by simp)).2.2.2.2.2
      simp [readSign, hc]
  | cons c cs =>
    by_cases hc : c = '-'
    · simp [readSign, hc]
    · simp [readSign, hc]

theorem stops_readWhole : Stops readWhole := by
  intro cs rest hrest
  cases cs with
  | nil =>
    cases rest with
    | nil => rfl
    | cons c rest =>
      have hdigit := (hrest c (by simp)).1
      have hc : c ≠ '0' := by
        rintro rfl
        cases hdigit
      simp [readWhole, hc, readDigits, hdigit]
  | cons c cs =>
    by_cases hc : c = '0'
    · simp [readWhole, hc]
    · have hdigits := stops_readDigits (c :: cs) rest hrest
      rw [List.cons_append] at hdigits
      simp [readWhole, hc, hdigits]

theorem stops_readFraction : Stops readFraction := by
  intro cs rest hrest
  cases cs with
  | nil =>
    cases rest with
    | nil => rfl
    | cons c rest =>
      have hc := (hrest c (by simp)).2.1
      simp [readFraction, hc]
  | cons c cs =>
    by_cases hc : c = '.'
    · subst hc
      simp only [List.cons_append, readFraction, stops_readDigits cs rest hrest]
      split <;> rfl
    · simp [readFraction, hc]

theorem stops_readExponentSign : Stops readExponentSign := by
  intro cs rest hrest
  cases cs with
  | nil =>
    cases rest with
    | nil => rfl
    | cons c rest =>
      have hc := (hrest c (by simp)).2.2.2.2
      simp [readExponentSign, readSign, hc.1, hc.2]
  | cons c cs =>
    by_cases hc : c = '+'
    · simp [readExponentSign, hc]
    · have hsign := stops_readSign (c :: cs) rest hrest
      rw [List.cons_append] at hsign
      simp [readExponentSign, hc, hsign]

theorem stops_readExponent : Stops readExponent := by
  intro cs rest hrest
  cases cs with
  | nil =>
    cases rest with
    | nil => rfl
    | cons c rest =>
      obtain ⟨_, _, he, hE, _⟩ := hrest c (by simp)
      simp [readExponent, he, hE]
  | cons c cs =>
    by_cases hc : c = 'e' ∨ c = 'E'
    · simp only [List.cons_append, readExponent, hc, if_true,
        stops_readExponentSign cs rest hrest, stops_readDigits _ rest hrest]
      split <;> rfl
    · simp [readExponent, hc]

/-- What follows a number is left over. -/
theorem readNumber_append (cs : List Char) {rest : List Char} (hrest : EndsNumber rest) :
    readNumber floatOf (cs ++ rest) =
      (readNumber floatOf cs).map (fun read => (read.1, read.2 ++ rest)) := by
  unfold readNumber
  simp only [stops_readSign cs rest hrest, stops_readWhole _ rest hrest,
    stops_readFraction _ rest hrest, stops_readExponent _ rest hrest]
  split_ifs <;> rfl

theorem head?_toDigits {n : Nat} (hn : 0 < n) : (Nat.toDigits 10 n).head? ≠ some '0' := by
  induction n using Nat.strongRecOn with
  | ind n ih =>
    by_cases hlt : n < 10
    · rw [Nat.toDigits_of_lt_base hlt]
      have hall : ∀ m < 10, 0 < m → [Nat.digitChar m].head? ≠ some '0' := by decide
      exact hall n hlt hn
    · have hsmaller := ih (n / 10) (by omega) (by omega)
      rw [Nat.toDigits_of_base_le (by decide) (by omega), List.head?_append]
      cases hhead : (Nat.toDigits 10 (n / 10)).head? with
      | none => exact absurd (List.head?_eq_none_iff.mp hhead) Nat.toDigits_ne_nil
      | some c => simpa [hhead] using hsmaller

theorem readDigits_toDigits (n : Nat) :
    readDigits (Nat.toDigits 10 n) = (Nat.toDigits 10 n, []) := by
  have hall : ∀ c ∈ Nat.toDigits 10 n, c.isDigit = true :=
    fun c hc => Nat.isDigit_of_mem_toDigits (by decide) (by decide) hc
  unfold readDigits
  rw [List.takeWhile_eq_self_iff.mpr hall, List.dropWhile_eq_nil_iff.mpr hall]

theorem readWhole_toDigits (n : Nat) :
    readWhole (Nat.toDigits 10 n) = (Nat.toDigits 10 n, []) := by
  by_cases hn : n = 0
  · subst hn
    rfl
  · have hhead := head?_toDigits (Nat.pos_of_ne_zero hn)
    unfold readWhole
    split
    · rename_i heq
      simp [heq] at hhead
    · exact readDigits_toDigits n

theorem readSign_toDigits (n : Nat) : readSign (Nat.toDigits 10 n) = ([], Nat.toDigits 10 n) := by
  unfold readSign
  split
  · rename_i rest heq
    have hminus : '-' ∈ Nat.toDigits 10 n := by simp [heq]
    exact absurd (Nat.isDigit_of_mem_toDigits (by decide) (by decide) hminus) (by decide)
  · rfl

/-- The digits of a number behind its sign. -/
theorem readNumber_digits {sign cs : List Char} {n : Nat}
    (hsign : readSign cs = (sign, Nat.toDigits 10 n)) :
    readNumber floatOf cs = some (.int (intOf sign (Nat.toDigits 10 n)), []) := by
  unfold readNumber
  simp only [hsign, readWhole_toDigits]
  simp [readFraction, readExponent, Nat.toDigits_ne_nil]

theorem readNumber_int (i : Int) :
    readNumber floatOf (toString i).toList = some (.int i, []) := by
  rw [Int.toString_eq_repr, Int.repr_eq_if]
  split
  · rw [Nat.toList_repr, readNumber_digits (readSign_toDigits i.toNat)]
    simp [intOf, Nat.ofDigitChars_ten_toDigits]
    omega
  · rw [String.toList_append, Nat.toList_repr]
    have hsign : readSign ("-".toList ++ Nat.toDigits 10 (-i).toNat) =
        (['-'], Nat.toDigits 10 (-i).toNat) := rfl
    rw [readNumber_digits hsign]
    simp [intOf, Nat.ofDigitChars_ten_toDigits]
    omega

/-! ## Floats -/

/-- What is relied on of Python's floats: the text of a finite one is a JSON number that reads
back as it, the others have their own words, and no number reads as NaN. -/
structure FloatText (floatRepr : PyFloat → String) (floatOf : String → PyFloat) : Prop where
  finite : ∀ x : PyFloat, x.isFinite = true →
    readNumber floatOf (floatRepr x).toList = some (.float x, [])
  special : ∀ x : PyFloat, x.isFinite = false → floatRepr x =
    if x.isNan then "NaN" else if x.isNegative then "-Infinity" else "Infinity"
  number : ∀ text, (floatOf text).isNan = false

/-- A float that is neither finite nor NaN. -/
theorem eq_infinity {x : PyFloat} (hfinite : x.isFinite = false) (hnan : x.isNan = false) :
    x = infinity x.isNegative := by
  have hlt := x.toNat_lt
  have hexponent : x.toNat / 2 ^ 52 % 2048 = 2047 := by
    simpa [PyFloat.isFinite, PyFloat.exponent, UInt64.toNat_shiftRight, Nat.shiftRight_eq_div_pow]
      using hfinite
  have hmantissa : x.toNat % 2 ^ 52 = 0 := by
    simpa [PyFloat.isNan, hfinite, PyFloat.mantissa] using hnan
  unfold infinity PyFloat.isNegative
  apply UInt64.toNat_inj.mp
  by_cases hsign : 2 ^ 63 ≤ x.toNat
  · simp only [hsign, decide_true, if_true]
    change x.toNat = 0xfff0000000000000
    omega
  · simp only [hsign, decide_false]
    change x.toNat = 0x7ff0000000000000
    omega

/-! ## Atoms -/

/-- A number starts with a digit or with a minus sign. -/
theorem head_of_readNumber {cs : List Char} {read : Json × List Char}
    (h : readNumber floatOf cs = some read) :
    ∃ c rest, cs = c :: rest ∧ (c.isDigit = true ∨ c = '-') := by
  cases cs with
  | nil => simp [readNumber, readSign, readWhole, readDigits] at h
  | cons c rest =>
    refine ⟨c, rest, rfl, ?_⟩
    by_contra hc
    rw [not_or] at hc
    have hzero : c ≠ '0' := by
      rintro rfl
      exact hc.1 rfl
    simp [readNumber, readSign, hc.2, readWhole, hzero, readDigits, hc.1] at h

/-- What starts neither a string nor an array nor an object. -/
theorem readValue_atom {c : Char} {cs : List Char} (hspace : isSpace c = false) (hquote : c ≠ '"')
    (hbracket : c ≠ '[') (hbrace : c ≠ '\x7b') (fuel : Nat) :
    readValue floatOf (fuel + 1) (c :: cs) =
      (readNumber floatOf (c :: cs)).or (readWord (c :: cs)) := by
  have hskip : skipSpace (c :: cs) = c :: cs := by simp [skipSpace, hspace]
  rw [readValue, hskip]
  split
  · rename_i heq
    exact absurd (List.cons.inj heq).1 hquote
  · rename_i heq
    exact absurd (List.cons.inj heq).1 hbracket
  · rename_i heq
    exact absurd (List.cons.inj heq).1 hbrace
  · rfl

theorem ne_of_head {c : Char} (hc : c.isDigit = true ∨ c = '-') (d : Char)
    (hd : d.isDigit = false) (hminus : d ≠ '-') : c ≠ d := by
  rintro rfl
  rcases hc with hc | hc
  · rw [hc] at hd
    cases hd
  · exact hminus hc

theorem readValue_number {cs rest : List Char} {value : Json}
    (h : readNumber floatOf cs = some (value, [])) (hrest : EndsNumber rest) (fuel : Nat) :
    readValue floatOf (fuel + 1) (cs ++ rest) = some (value, rest) := by
  obtain ⟨c, cs, rfl, hc⟩ := head_of_readNumber h
  have happend : readNumber floatOf (c :: cs ++ rest) = some (value, rest) := by
    rw [readNumber_append (c :: cs) hrest, h]
    rfl
  rw [List.cons_append] at happend ⊢
  have hne := ne_of_head hc
  have hspace : isSpace c = false := by
    simp [isSpace, hne ' ', hne '\t', hne '\n', hne '\r']
  rw [readValue_atom hspace (hne _ (by decide) (by decide)) (hne _ (by decide) (by decide))
    (hne _ (by decide) (by decide)), happend]
  rfl

theorem readValue_word {word : String} {value : Json} (hmem : (word, value) ∈ words)
    (rest : List Char) (fuel : Nat) :
    readValue floatOf (fuel + 1) (word.toList ++ rest) = some (value, rest) := by
  simp only [words, List.mem_cons, Prod.mk.injEq, List.not_mem_nil, or_false] at hmem
  rcases hmem with ⟨rfl, rfl⟩ | ⟨rfl, rfl⟩ | ⟨rfl, rfl⟩ | ⟨rfl, rfl⟩ | ⟨rfl, rfl⟩ | ⟨rfl, rfl⟩
  all_goals
    change readValue floatOf (fuel + 1) (_ :: _) = _
    rw [readValue_atom (by decide) (by decide) (by decide) (by decide)]
    rfl

/-! ## Texts -/

/-- What stands between two items, and between a key and its value. -/
structure Separators where
  item : String
  key : String

/-- Separators that a reader takes for a comma and a colon. -/
structure Separators.Readable (sep : Separators) : Prop where
  item : ∃ spaces, sep.item.toList = ',' :: spaces ∧ ∀ c ∈ spaces, isSpace c = true
  key : ∃ spaces, sep.key.toList = ':' :: spaces ∧ ∀ c ∈ spaces, isSpace c = true

mutual

/-- `json.dumps(value, separators=.., ensure_ascii=False)`, the keys in the order of the dicts. -/
def write (sep : Separators) (floatRepr : PyFloat → String) : Json → String
  | .null => "null"
  | .bool true => "true"
  | .bool false => "false"
  | .int i => toString i
  | .float x => floatRepr x
  | .str s => quoted s
  | .arr xs => "[" ++ sep.item.intercalate (writeList sep floatRepr xs) ++ "]"
  | .obj fields => "\x7b" ++ sep.item.intercalate (writeFields sep floatRepr fields) ++ "\x7d"

def writeList (sep : Separators) (floatRepr : PyFloat → String) : List Json → List String
  | [] => []
  | x :: rest => write sep floatRepr x :: writeList sep floatRepr rest

def writeFields (sep : Separators) (floatRepr : PyFloat → String) : Dict → List String
  | [] => []
  | (key, x) :: rest =>
    (quoted key ++ sep.key ++ write sep floatRepr x) :: writeFields sep floatRepr rest

end

mutual

/-- There is one text for NaN, whatever its bits. -/
def unifyNan : Json → Json
  | .float x => .float (if x.isNan then nan else x)
  | .arr xs => .arr (unifyNanList xs)
  | .obj fields => .obj (unifyNanFields fields)
  | value => value

def unifyNanList : List Json → List Json
  | [] => []
  | x :: rest => unifyNan x :: unifyNanList rest

def unifyNanFields : Dict → Dict
  | [] => []
  | (key, x) :: rest => (key, unifyNan x) :: unifyNanFields rest

end

variable {sep : Separators}

theorem skipSpace_append {spaces : List Char} (hspaces : ∀ c ∈ spaces, isSpace c = true)
    (cs : List Char) : skipSpace (spaces ++ cs) = skipSpace cs := by
  unfold skipSpace
  rw [List.dropWhile_append_of_pos hspaces]

/-- A value skips the spaces in front of it. -/
theorem readValue_skip {spaces : List Char} (hspaces : ∀ c ∈ spaces, isSpace c = true)
    (cs : List Char) (fuel : Nat) :
    readValue floatOf fuel (spaces ++ cs) = readValue floatOf fuel cs := by
  cases fuel with
  | zero => simp [readValue]
  | succ fuel => rw [readValue, readValue, skipSpace_append hspaces]

theorem readItems_skip {spaces : List Char} (hspaces : ∀ c ∈ spaces, isSpace c = true)
    (cs : List Char) (fuel : Nat) :
    readItems floatOf fuel (spaces ++ cs) = readItems floatOf fuel cs := by
  cases fuel with
  | zero => simp [readItems]
  | succ fuel => rw [readItems, readItems, readValue_skip hspaces]

theorem readFields_skip {spaces : List Char} (hspaces : ∀ c ∈ spaces, isSpace c = true)
    (cs : List Char) (fuel : Nat) :
    readFields floatOf fuel (spaces ++ cs) = readFields floatOf fuel cs := by
  cases fuel with
  | zero => simp [readFields]
  | succ fuel => rw [readFields, readFields, skipSpace_append hspaces]

theorem endsNumber_cons {c : Char} (hc : c = ',' ∨ c = ']' ∨ c = '\x7d') (rest : List Char) :
    EndsNumber (c :: rest) := by
  rintro d hd
  obtain rfl : c = d := by simpa using hd
  rcases hc with rfl | rfl | rfl
  all_goals exact ⟨by decide, by decide, by decide, by decide, by decide, by decide⟩

theorem readValue_string (s : String) (rest : List Char) {fuel : Nat}
    (hfuel : (quoted s).length ≤ fuel) :
    readValue floatOf fuel ((quoted s).toList ++ rest) = some (.str s, rest) := by
  rw [← String.length_toList, toList_quoted] at hfuel
  have hlength := length_le_escaped s.toList
  simp only [List.length_cons, List.length_append, List.length_nil] at hfuel
  obtain ⟨fuel, rfl⟩ : ∃ n, fuel = n + 1 := ⟨fuel - 1, by omega⟩
  have hskip : skipSpace ((quoted s).toList ++ rest) =
      '"' :: (s.toList.flatMap escapeChar ++ '"' :: rest) := by
    rw [toList_quoted]
    simp [skipSpace, isSpace]
  have hstring : readString fuel (s.toList.flatMap escapeChar ++ '"' :: rest) =
      some (s.toList, rest) := readString_escaped s.toList rest (by omega)
  rw [readValue, hskip]
  simp only [hstring, Option.map_some, String.ofList_toList]

/-- No text of a value starts with a space or with a closing bracket. -/
theorem head_write (hfloats : FloatText floatRepr floatOf) (sep : Separators) (value : Json) :
    ∃ c cs, (write sep floatRepr value).toList = c :: cs ∧ isSpace c = false ∧ c ≠ ']' := by
  have hnumber : ∀ {cs : List Char} {read : Json × List Char},
      readNumber floatOf cs = some read →
        ∃ c rest, cs = c :: rest ∧ isSpace c = false ∧ c ≠ ']' := by
    intro cs read h
    obtain ⟨c, rest, rfl, hc⟩ := head_of_readNumber h
    have hne := ne_of_head hc
    exact ⟨c, rest, rfl, by simp [isSpace, hne ' ', hne '\t', hne '\n', hne '\r'],
      hne _ (by decide) (by decide)⟩
  cases value with
  | null =>
    rw [write]
    exact ⟨'n', _, rfl, by decide, by decide⟩
  | bool b =>
    cases b with
    | false =>
      rw [write]
      exact ⟨'f', _, rfl, by decide, by decide⟩
    | true =>
      rw [write]
      exact ⟨'t', _, rfl, by decide, by decide⟩
  | int i =>
    have hint : readNumber floatOf (toString i).toList = some (.int i, []) := readNumber_int i
    exact hnumber hint
  | float x =>
    cases hfinite : x.isFinite with
    | true => exact hnumber (hfloats.finite x hfinite)
    | false =>
      rw [write, hfloats.special x hfinite]
      split_ifs <;> exact ⟨_, _, rfl, by decide, by decide⟩
  | str s => exact ⟨_, _, toList_quoted s, by decide, by decide⟩
  | arr xs =>
    simp only [write, String.toList_append]
    exact ⟨_, _, rfl, by decide, by decide⟩
  | obj fields =>
    simp only [write, String.toList_append]
    exact ⟨_, _, rfl, by decide, by decide⟩

theorem readValue_float (hfloats : FloatText floatRepr floatOf) (x : PyFloat) {rest : List Char}
    (hrest : EndsNumber rest) (fuel : Nat) :
    readValue floatOf (fuel + 1) ((floatRepr x).toList ++ rest) =
      some (.float (if x.isNan then nan else x), rest) := by
  cases hfinite : x.isFinite with
  | true =>
    have hnan : x.isNan = false := by simp [PyFloat.isNan, hfinite]
    rw [hnan, if_neg Bool.false_ne_true]
    exact readValue_number (hfloats.finite x hfinite) hrest fuel
  | false =>
    rw [hfloats.special x hfinite]
    cases hnan : x.isNan with
    | true => exact readValue_word (by simp [words]) rest fuel
    | false =>
      have hx := eq_infinity hfinite hnan
      cases hsign : x.isNegative with
      | true =>
        rw [hsign] at hx
        simp only [Bool.false_eq_true, if_false, if_true]
        rw [hx]
        exact readValue_word (by simp [words]) rest fuel
      | false =>
        rw [hsign] at hx
        simp only [Bool.false_eq_true, if_false]
        rw [hx]
        exact readValue_word (by simp [words]) rest fuel

/-! ## The round trip -/

/-- A comma with its spaces, in front of more items. -/
theorem toList_intercalate_cons (hsep : sep.Readable) (text next : String) (texts : List String)
    (rest : List Char) : ∃ spaces, (∀ c ∈ spaces, isSpace c = true) ∧
      (sep.item.intercalate (text :: next :: texts)).toList ++ rest =
        text.toList ++ ',' :: (spaces ++ ((sep.item.intercalate (next :: texts)).toList ++ rest)) ∧
      (sep.item.intercalate (text :: next :: texts)).length =
        text.length + 1 + spaces.length + (sep.item.intercalate (next :: texts)).length := by
  obtain ⟨spaces, hitem, hspaces⟩ := hsep.item
  refine ⟨spaces, hspaces, ?_, ?_⟩
  · rw [String.intercalate_cons_cons]
    simp [hitem]
  · have hlength : sep.item.length = spaces.length + 1 := by
      rw [← String.length_toList, hitem, List.length_cons]
    rw [String.intercalate_cons_cons, String.length_append, String.length_append, hlength]
    omega

/-- A key and what stands between it and its value. -/
theorem toList_field (hsep : sep.Readable) (key value : String) (rest : List Char) :
    ∃ spaces, (∀ c ∈ spaces, isSpace c = true) ∧
      (quoted key ++ sep.key ++ value).toList ++ rest = '"' :: (key.toList.flatMap escapeChar ++
        '"' :: ':' :: (spaces ++ (value.toList ++ rest))) ∧
      (quoted key ++ sep.key ++ value).length =
        (key.toList.flatMap escapeChar).length + 3 + spaces.length + value.length := by
  obtain ⟨spaces, hkey, hspaces⟩ := hsep.key
  refine ⟨spaces, hspaces, ?_, ?_⟩
  · simp [toList_quoted, hkey]
  · rw [← String.length_toList, String.toList_append, String.toList_append, toList_quoted, hkey]
    simp only [List.length_append, List.length_cons, List.length_nil, String.length_toList]
    omega

theorem skipSpace_cons {c : Char} (hc : isSpace c = false) (rest : List Char) :
    skipSpace (c :: rest) = c :: rest := by
  simp [skipSpace, hc]

/-- No list of items starts with a space or with a closing bracket. -/
theorem head_items (hfloats : FloatText floatRepr floatOf) (hsep : sep.Readable) (x : Json)
    (texts : List String) : ∃ c cs,
      (sep.item.intercalate (write sep floatRepr x :: texts)).toList = c :: cs ∧
        isSpace c = false ∧ c ≠ ']' := by
  obtain ⟨c, cs, hhead, hspace, hbracket⟩ := head_write hfloats sep x
  cases texts with
  | nil => exact ⟨c, cs, by rw [String.intercalate_singleton, hhead], hspace, hbracket⟩
  | cons next texts =>
    obtain ⟨spaces, _, htext, _⟩ :=
      toList_intercalate_cons hsep (write sep floatRepr x) next texts []
    rw [List.append_nil, hhead, List.cons_append] at htext
    exact ⟨c, _, htext, hspace, hbracket⟩

/-- The text of a dict that is not empty goes on with a key. -/
theorem head_fields (hsep : sep.Readable) (key : String) (x : Json) (fields : Dict) :
    ∃ cs, (sep.item.intercalate (writeFields sep floatRepr ((key, x) :: fields))).toList =
      '"' :: cs := by
  obtain ⟨_, _, hkey, _⟩ := toList_field hsep key (write sep floatRepr x) []
  rw [List.append_nil] at hkey
  cases fields with
  | nil =>
    rw [writeFields, writeFields, String.intercalate_singleton, hkey]
    exact ⟨_, rfl⟩
  | cons next fields =>
    obtain ⟨key', y⟩ := next
    rw [writeFields, writeFields, String.intercalate_cons_cons, String.toList_append,
      String.toList_append, hkey]
    exact ⟨_, rfl⟩

/-- The text of the value is read as the value. -/
def Reads (sep : Separators) (floatRepr : PyFloat → String) (floatOf : String → PyFloat)
    (value : Json) : Prop :=
  ∀ fuel rest, EndsNumber rest → 2 * (write sep floatRepr value).length ≤ fuel →
    readValue floatOf fuel ((write sep floatRepr value).toList ++ rest) =
      some (value.unifyNan, rest)

theorem readItems_write (hsep : sep.Readable) (x : Json) (xs : List Json)
    (hall : ∀ y ∈ x :: xs, Reads sep floatRepr floatOf y) (fuel : Nat) (rest : List Char)
    (hfuel : 2 * (sep.item.intercalate (writeList sep floatRepr (x :: xs))).length + 1 ≤ fuel) :
    readItems floatOf fuel ((sep.item.intercalate (writeList sep floatRepr (x :: xs))).toList ++
      ']' :: rest) = some (unifyNanList (x :: xs), rest) := by
  obtain ⟨fuel, rfl⟩ : ∃ n, fuel = n + 1 := ⟨fuel - 1, by omega⟩
  have hx := hall x (by simp)
  induction xs generalizing x fuel with
  | nil =>
    simp only [writeList, String.intercalate_singleton] at hfuel ⊢
    rw [readItems, hx fuel (']' :: rest) (endsNumber_cons (by simp) _) (by omega)]
    simp only [Option.bind_eq_bind, Option.bind_some,
      skipSpace_cons (show isSpace ']' = false by decide)]
    rfl
  | cons y ys ih =>
    obtain ⟨spaces, hspaces, htext, hlength⟩ := toList_intercalate_cons hsep
      (write sep floatRepr x) (write sep floatRepr y) (writeList sep floatRepr ys) (']' :: rest)
    simp only [writeList] at hfuel ih ⊢
    rw [hlength] at hfuel
    obtain ⟨fuel, rfl⟩ : ∃ n, fuel = n + 1 := ⟨fuel - 1, by omega⟩
    rw [htext, readItems, hx (fuel + 1) _ (endsNumber_cons (by simp) _) (by omega)]
    simp only [Option.bind_eq_bind, Option.bind_some,
      skipSpace_cons (show isSpace ',' = false by decide), readItems_skip hspaces]
    rw [ih y (fun z hz => hall z (List.mem_cons_of_mem _ hz)) fuel (by omega)
      (hall y (by simp))]
    rfl

theorem readFields_write (hsep : sep.Readable) (key : String) (x : Json) (fields : Dict)
    (hall : ∀ field ∈ (key, x) :: fields, Reads sep floatRepr floatOf field.2) (fuel : Nat)
    (rest : List Char)
    (hfuel : 2 * (sep.item.intercalate (writeFields sep floatRepr ((key, x) :: fields))).length +
      1 ≤ fuel) :
    readFields floatOf fuel ((sep.item.intercalate
      (writeFields sep floatRepr ((key, x) :: fields))).toList ++ '\x7d' :: rest) =
        some (unifyNanFields ((key, x) :: fields), rest) := by
  obtain ⟨fuel, rfl⟩ : ∃ n, fuel = n + 1 := ⟨fuel - 1, by omega⟩
  have hx : Reads sep floatRepr floatOf x := hall (key, x) (by simp)
  have hkey := length_le_escaped key.toList
  induction fields generalizing key x fuel with
  | nil =>
    obtain ⟨spaces, hspaces, htext, hlength⟩ :=
      toList_field hsep key (write sep floatRepr x) ('\x7d' :: rest)
    simp only [writeFields, String.intercalate_singleton] at hfuel ⊢
    rw [hlength] at hfuel
    rw [htext, readFields, skipSpace_cons (by decide)]
    simp only [readString_escaped key.toList _ (show key.toList.length < fuel by omega),
      Option.bind_eq_bind, Option.bind_some, skipSpace_cons (show isSpace ':' = false by decide),
      readValue_skip hspaces]
    rw [hx fuel _ (endsNumber_cons (by simp) _) (by omega)]
    simp only [Option.bind_some, skipSpace_cons (show isSpace '\x7d' = false by decide),
      String.ofList_toList]
    rfl
  | cons field fields ih =>
    obtain ⟨key', y⟩ := field
    obtain ⟨spaces, hspaces, htext, hlength⟩ := toList_intercalate_cons hsep
      (quoted key ++ sep.key ++ write sep floatRepr x)
      (quoted key' ++ sep.key ++ write sep floatRepr y) (writeFields sep floatRepr fields)
      ('\x7d' :: rest)
    obtain ⟨spaces', hspaces', htext', hlength'⟩ :=
      toList_field hsep key (write sep floatRepr x) (',' :: (spaces ++
        ((sep.item.intercalate ((quoted key' ++ sep.key ++ write sep floatRepr y) ::
          writeFields sep floatRepr fields)).toList ++ '\x7d' :: rest)))
    simp only [writeFields] at hfuel ih ⊢
    rw [hlength, hlength'] at hfuel
    obtain ⟨fuel, rfl⟩ : ∃ n, fuel = n + 1 := ⟨fuel - 1, by omega⟩
    rw [htext, htext', readFields, skipSpace_cons (by decide)]
    simp only [readString_escaped key.toList _ (show key.toList.length < fuel + 1 by omega),
      Option.bind_eq_bind, Option.bind_some, skipSpace_cons (show isSpace ':' = false by decide),
      readValue_skip hspaces']
    rw [hx (fuel + 1) _ (endsNumber_cons (by simp) _) (by omega)]
    simp only [Option.bind_some, skipSpace_cons (show isSpace ',' = false by decide),
      String.ofList_toList, readFields_skip hspaces]
    have hy : Reads sep floatRepr floatOf y := hall (key', y) (by simp)
    rw [ih key' y (fun f hf => hall f (List.mem_cons_of_mem _ hf)) fuel
      (by omega) hy (length_le_escaped _)]
    simp [unifyNanFields]

/-- Induction over a value: what holds of the items of an array holds of the array, and what
holds of the values of a dict holds of the dict. -/
@[elab_as_elim]
theorem induct {motive : Json → Prop} (null : motive .null) (bool : ∀ b, motive (.bool b))
    (int : ∀ i, motive (.int i)) (float : ∀ x, motive (.float x)) (str : ∀ s, motive (.str s))
    (arr : ∀ xs, (∀ x ∈ xs, motive x) → motive (.arr xs))
    (obj : ∀ fields, (∀ field ∈ fields, motive field.2) → motive (.obj fields)) :
    ∀ value, motive value := by
  intro value
  refine @Json.rec motive (fun xs => ∀ x ∈ xs, motive x)
    (fun fields => ∀ field ∈ fields, motive field.2) (fun field => motive field.2)
    null bool int float str arr obj ?_ ?_ ?_ ?_ ?_ value
  · simp
  · intro x xs hx hxs y hy
    rcases List.mem_cons.mp hy with rfl | hy
    · exact hx
    · exact hxs y hy
  · simp
  · intro field fields hfield hfields f hf
    rcases List.mem_cons.mp hf with rfl | hf
    · exact hfield
    · exact hfields f hf
  · exact fun _ _ h => h

theorem write_length_pos (hfloats : FloatText floatRepr floatOf) (value : Json) :
    0 < (write sep floatRepr value).length := by
  obtain ⟨c, cs, hhead, _⟩ := head_write hfloats sep value
  rw [← String.length_toList, hhead, List.length_cons]
  omega

/-- The brackets around the items of an array or the fields of a dict. -/
theorem length_brackets (first last text : String) (hfirst : first.length = 1)
    (hlast : last.length = 1) : (first ++ text ++ last).length = text.length + 2 := by
  simp only [String.length_append]
  omega

/-- Some fuel is there, since no text is empty. -/
theorem reads_of_succ (hfloats : FloatText floatRepr floatOf) {value : Json}
    (h : ∀ fuel rest, EndsNumber rest → 2 * (write sep floatRepr value).length ≤ fuel + 1 →
      readValue floatOf (fuel + 1) ((write sep floatRepr value).toList ++ rest) =
        some (value.unifyNan, rest)) : Reads sep floatRepr floatOf value := by
  intro fuel rest hrest hfuel
  have hpos : 0 < (write sep floatRepr value).length := write_length_pos hfloats value
  obtain ⟨fuel, rfl⟩ : ∃ n, fuel = n + 1 := ⟨fuel - 1, by omega⟩
  exact h fuel rest hrest hfuel

theorem reads_arr (hfloats : FloatText floatRepr floatOf) (hsep : sep.Readable) {xs : List Json}
    (hall : ∀ x ∈ xs, Reads sep floatRepr floatOf x) : Reads sep floatRepr floatOf (.arr xs) := by
  apply reads_of_succ hfloats
  intro fuel rest _ hfuel
  have htext : (write sep floatRepr (.arr xs)).toList ++ rest =
      '[' :: ((sep.item.intercalate (writeList sep floatRepr xs)).toList ++ ']' :: rest) := by
    simp [write]
  have hlength : (write sep floatRepr (.arr xs)).length =
      (sep.item.intercalate (writeList sep floatRepr xs)).length + 2 :=
    length_brackets _ _ _ rfl rfl
  rw [htext, readValue, skipSpace_cons (by decide)]
  cases xs with
  | nil => simp [writeList, skipSpace, isSpace, unifyNan, unifyNanList]
  | cons x xs =>
    have hitems := readItems_write hsep x xs hall fuel rest (by omega)
    obtain ⟨c, cs, hhead, hspace, hbracket⟩ :=
      head_items hfloats hsep x (writeList sep floatRepr xs)
    rw [writeList, hhead, List.cons_append] at hitems
    simp only [writeList, hhead, List.cons_append, skipSpace_cons hspace]
    split
    · rename_i heq
      exact absurd (List.cons.inj heq).1 hbracket
    · rw [hitems]
      simp [unifyNan]

theorem reads_obj (hfloats : FloatText floatRepr floatOf) (hsep : sep.Readable) {fields : Dict}
    (hall : ∀ field ∈ fields, Reads sep floatRepr floatOf field.2) :
    Reads sep floatRepr floatOf (.obj fields) := by
  apply reads_of_succ hfloats
  intro fuel rest _ hfuel
  have htext : (write sep floatRepr (.obj fields)).toList ++ rest = '\x7b' ::
      ((sep.item.intercalate (writeFields sep floatRepr fields)).toList ++ '\x7d' :: rest) := by
    simp [write]
  have hlength : (write sep floatRepr (.obj fields)).length =
      (sep.item.intercalate (writeFields sep floatRepr fields)).length + 2 :=
    length_brackets _ _ _ rfl rfl
  rw [htext, readValue, skipSpace_cons (by decide)]
  cases fields with
  | nil => simp [writeFields, skipSpace, isSpace, unifyNan, unifyNanFields]
  | cons field fields =>
    obtain ⟨key, x⟩ := field
    have hfields := readFields_write hsep key x fields hall fuel rest (by omega)
    obtain ⟨cs, hhead⟩ := head_fields hsep key x fields
    rw [hhead, List.cons_append] at hfields
    simp only [hhead, List.cons_append, skipSpace_cons (show isSpace '"' = false by decide)]
    split
    · rename_i heq
      exact absurd (List.cons.inj heq).1 (by decide)
    · rw [hfields]
      simp [unifyNan]

theorem reads_write (hfloats : FloatText floatRepr floatOf) (hsep : sep.Readable) (value : Json) :
    Reads sep floatRepr floatOf value := by
  induction value using induct with
  | arr xs ih => exact reads_arr hfloats hsep ih
  | obj fields ih => exact reads_obj hfloats hsep ih
  | null =>
    apply reads_of_succ hfloats
    intro fuel rest _ _
    simpa only [write, unifyNan] using readValue_word (by simp [words]) rest fuel
  | bool b =>
    apply reads_of_succ hfloats
    intro fuel rest _ _
    cases b with
    | true => simpa only [write, unifyNan] using readValue_word (by simp [words]) rest fuel
    | false => simpa only [write, unifyNan] using readValue_word (by simp [words]) rest fuel
  | int i =>
    apply reads_of_succ hfloats
    intro fuel rest hrest _
    simpa only [write, unifyNan] using readValue_number (readNumber_int i) hrest fuel
  | float x =>
    apply reads_of_succ hfloats
    intro fuel rest hrest _
    simpa only [write, unifyNan] using readValue_float hfloats x hrest fuel
  | str s =>
    intro fuel rest _ hfuel
    rw [write] at hfuel
    have hstring : readValue floatOf fuel ((quoted s).toList ++ rest) = some (.str s, rest) :=
      readValue_string s rest (by omega)
    simpa only [write, unifyNan] using hstring

/-- What is written is read again, up to the bits of NaN. -/
theorem read_write (hfloats : FloatText floatRepr floatOf) (hsep : sep.Readable) (value : Json) :
    read floatOf (write sep floatRepr value) = some value.unifyNan := by
  have hreads := reads_write hfloats hsep value
    (2 * (write sep floatRepr value).length + 2) [] endsNumber_nil (by omega)
  rw [List.append_nil] at hreads
  simp [read, hreads, skipSpace]

/-! ## The shortest separators -/

def compact : Separators := ⟨",", ":"⟩

theorem compact_readable : compact.Readable := ⟨⟨[], rfl, by simp⟩, ⟨[], rfl, by simp⟩⟩

/-! ## A text for floats -/

/-- A float as the number of its bits, with a fraction to tell it from an integer. -/
def bitsText (x : PyFloat) : String :=
  if x.isFinite then toString x.toNat ++ ".0"
  else if x.isNan then "NaN" else if x.isNegative then "-Infinity" else "Infinity"

def floatOfBits (text : String) : PyFloat :=
  let x : PyFloat := UInt64.ofNat (Nat.ofDigitChars 10 (text.toList.takeWhile Char.isDigit) 0)
  if x.isNan then 0 else x

theorem floatText_bitsText : FloatText bitsText floatOfBits := by
  constructor
  · intro x hfinite
    have hpoint : ∀ c ∈ ['.', '0'].head?, c.isDigit = false := by
      intro c hc
      cases hc
      rfl
    have hdigits := readDigits_append (Nat.toDigits 10 x.toNat) hpoint
    rw [readDigits_toDigits, List.nil_append] at hdigits
    have hsign : readSign (Nat.toDigits 10 x.toNat ++ ['.', '0']) =
        ([], Nat.toDigits 10 x.toNat ++ ['.', '0']) := by
      have hdigit := readSign_toDigits x.toNat
      cases hcs : Nat.toDigits 10 x.toNat with
      | nil => rfl
      | cons c cs =>
        rw [hcs] at hdigit
        by_cases hc : c = '-'
        · simp [readSign, hc] at hdigit
        · simp [readSign, hc]
    have hwhole : readWhole (Nat.toDigits 10 x.toNat ++ ['.', '0']) =
        (Nat.toDigits 10 x.toNat, ['.', '0']) := by
      have hdigit := readWhole_toDigits x.toNat
      cases hcs : Nat.toDigits 10 x.toNat with
      | nil => exact absurd hcs Nat.toDigits_ne_nil
      | cons c cs =>
        rw [hcs] at hdigit hdigits
        by_cases hc : c = '0'
        · subst hc
          simp only [readWhole, Prod.mk.injEq, List.cons.injEq, true_and] at hdigit
          simp [readWhole, hdigit.1]
        · simpa [readWhole, hc] using hdigits
    have htext : (bitsText x).toList = Nat.toDigits 10 x.toNat ++ ['.', '0'] := by
      simp [bitsText, hfinite]
    have hvalue : floatOfBits (String.ofList (Nat.toDigits 10 x.toNat) ++ ".0") = x := by
      have hnan : x.isNan = false := by simp [PyFloat.isNan, hfinite]
      have htake : (Nat.toDigits 10 x.toNat ++ ['.', '0']).takeWhile Char.isDigit =
          Nat.toDigits 10 x.toNat := congrArg Prod.fst hdigits
      simp [floatOfBits, htake, Nat.ofDigitChars_ten_toDigits, hnan]
    unfold readNumber
    simp only [htext, hsign, hwhole]
    simp only [readFraction, readDigits, readExponent]
    simp [Nat.toDigits_ne_nil, hvalue]
  · intro x hfinite
    simp [bitsText, hfinite]
  · intro text
    unfold floatOfBits
    dsimp only
    split
    · decide
    · rename_i h
      simpa using h

end uni_agent.Json
