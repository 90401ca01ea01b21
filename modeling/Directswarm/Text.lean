import Mathlib.Data.List.Basic
import Mathlib.Data.Fin.Basic
import Mathlib.Algebra.Order.Ring.Nat
import Mathlib.Tactic.Common

/-!
Text as lists of characters: decimal numerals, lower-case hexadecimal, trimmed
text and lines. A numeral reads back as its number (`fromDecimal_decimal`), bytes
read back from their hexadecimal form (`parseHex_hexOf`), and the prefix of a
numeral stands for no more than the whole (`fromDecimal_prefix`), which is what a
reader needs to know about a text that was cut off.
-/
namespace Directswarm.Text

/-! ### Decimal numerals -/

/-- The decimal numeral of a number. -/
def decimal (n : Nat) : List Char := Nat.toDigits 10 n

/-- The number that a string of decimal digits stands for. -/
def fromDecimal (cs : List Char) : Option Nat :=
  if cs.all Char.isDigit then some (Nat.ofDigitChars 10 cs 0) else none

theorem decimal_isDigit {n : Nat} : ∀ c ∈ decimal n, c.isDigit = true :=
  fun _ member => Nat.isDigit_of_mem_toDigits (by decide) (by decide) member

theorem decimal_ne_nil (n : Nat) : decimal n ≠ [] := Nat.toDigits_ne_nil

theorem fromDecimal_decimal (n : Nat) : fromDecimal (decimal n) = some n := by
  have digits : (decimal n).all Char.isDigit = true := List.all_eq_true.mpr decimal_isDigit
  rw [fromDecimal,if_pos digits,decimal,Nat.ofDigitChars_ten_toDigits]

/-- A numeral that was cut off stands for no more than the whole. -/
theorem fromDecimal_prefix {cs ds : List Char} {m n : Nat} (cut : cs <+: ds) (whole : fromDecimal ds = some n)
    (read : fromDecimal cs = some m) : m ≤ n := by
  obtain ⟨rest,rfl⟩ := cut
  unfold fromDecimal at whole read
  by_cases digits : (cs ++ rest).all Char.isDigit
  · rw [if_pos digits,Nat.ofDigitChars_append,Nat.ofDigitChars_eq_ofDigitChars_zero] at whole
    rw [List.all_append,Bool.and_eq_true] at digits
    rw [if_pos digits.1] at read
    cases whole
    cases read
    have scale : 1 ≤ 10 ^ rest.length := Nat.one_le_pow _ _ (by decide)
    calc Nat.ofDigitChars 10 cs 0 = 1 * Nat.ofDigitChars 10 cs 0 := (Nat.one_mul _).symm
      _ ≤ 10 ^ rest.length * Nat.ofDigitChars 10 cs 0 := Nat.mul_le_mul_right _ scale
      _ ≤ _ := Nat.le_add_right _ _
  · rw [if_neg digits] at whole; cases whole

/-- A numeral below `2 ^ width`, after an optional plus sign. -/
def parseUnsigned (width : Nat) (cs : List Char) : Option Nat :=
  let digits := if cs.head? = some '+' then cs.tail else cs
  if digits = [] then none else (fromDecimal digits).filter fun n => n < 2 ^ width

theorem parseUnsigned_decimal {width n : Nat} (fits : n < 2 ^ width) : parseUnsigned width (decimal n) = some n := by
  have bare : (decimal n).head? ≠ some '+' := by
    intro plus
    have digit := decimal_isDigit '+' (List.mem_of_mem_head? plus)
    simp at digit
  simp only [parseUnsigned,if_neg bare,if_neg (decimal_ne_nil n),fromDecimal_decimal]
  simp [fits]

theorem parseUnsigned_lt {width n : Nat} {cs : List Char} (read : parseUnsigned width cs = some n) : n < 2 ^ width := by
  generalize digits : (if cs.head? = some '+' then cs.tail else cs) = ds
  simp only [parseUnsigned,digits] at read
  by_cases empty : ds = []
  · rw [if_pos empty] at read; cases read
  · rw [if_neg empty,Option.filter_eq_some_iff] at read
    simpa using read.2

/-- A cut numeral reads as nothing or as no more than the whole. -/
theorem parseUnsigned_prefix {width m n : Nat} {cs : List Char} (cut : cs <+: decimal n)
    (read : parseUnsigned width cs = some m) : m ≤ n := by
  have bare : cs.head? ≠ some '+' := by
    intro plus
    have digit := decimal_isDigit (n := n) '+' (cut.subset (List.mem_of_mem_head? plus))
    simp at digit
  simp only [parseUnsigned,if_neg bare] at read
  by_cases empty : cs = []
  · rw [if_pos empty] at read; cases read
  · rw [if_neg empty,Option.filter_eq_some_iff] at read
    exact fromDecimal_prefix cut (fromDecimal_decimal n) read.1

/-- `str::parse` into a word of some width. -/
def parseWord (width : Nat) (cs : List Char) : Option (Fin (2 ^ width)) :=
  match read : parseUnsigned width cs with
  | none => none
  | some n => some ⟨n,parseUnsigned_lt read⟩

theorem parseWord_decimal {width : Nat} (w : Fin (2 ^ width)) : parseWord width (decimal w.val) = some w := by
  have read := parseUnsigned_decimal w.isLt
  unfold parseWord
  split
  · rename_i none_; rw [none_] at read; cases read
  · rename_i n some_; rw [some_] at read; cases read; rfl

/-! ### Hexadecimal -/

abbrev Byte := Fin 256

instance neZero_byte : NeZero 256 := ⟨by decide⟩

/-- The lower-case digit of a nibble. -/
def hexDigit (nibble : Fin 16) : Char := Nat.digitChar nibble.val

/-- The nibble of a hexadecimal digit of either case. -/
def hexValue (c : Char) : Option (Fin 16) := (List.finRange 16).find? fun nibble => hexDigit nibble == c.toLower

theorem hexValue_hexDigit : ∀ nibble, hexValue (hexDigit nibble) = some nibble := by decide

theorem hexDigit_isLower : ∀ nibble, (hexDigit nibble).toLower = hexDigit nibble := by decide

/-- A hexadecimal digit of either case, in lower case. -/
theorem toLower_of_hexValue {c : Char} {nibble : Fin 16} (read : hexValue c = some nibble) :
    c.toLower = hexDigit nibble := by
  have found := List.find?_some read
  exact (beq_iff_eq.mp found).symm

/-- The two digits of a byte. -/
def hexByte (b : Byte) : List Char :=
  [hexDigit ⟨b.val / 16,by omega⟩,hexDigit ⟨b.val % 16,Nat.mod_lt _ (by decide)⟩]

/-- The digits of a string of bytes. -/
def hexOf (bytes : List Byte) : List Char := bytes.flatMap hexByte

/-- Two digits a byte, read back. -/
def parseHex : List Char → Option (List Byte)
  | [] => some []
  | hi :: lo :: rest =>
    match hexValue hi, hexValue lo, parseHex rest with
    | some high, some low, some bytes => some (⟨high.val * 16 + low.val,by omega⟩ :: bytes)
    | _, _, _ => none
  | [_] => none

theorem parseHex_hexOf (bytes : List Byte) : parseHex (hexOf bytes) = some bytes := by
  induction bytes with
  | nil => rfl
  | cons b rest ih =>
    show parseHex (hexDigit _ :: hexDigit _ :: hexOf rest) = _
    rw [parseHex,hexValue_hexDigit,hexValue_hexDigit,ih]
    simp only [Option.some.injEq,List.cons.injEq,and_true]
    exact Fin.ext (Nat.div_add_mod' b.val 16)

theorem hexOf_length (bytes : List Byte) : (hexOf bytes).length = 2 * bytes.length := by
  induction bytes with
  | nil => rfl
  | cons b rest ih =>
    show (hexOf rest).length + 2 = _
    rw [ih,List.length_cons]; omega

theorem hexOf_digits (bytes : List Byte) : ∀ c ∈ hexOf bytes, ∃ nibble, c = hexDigit nibble := by
  intro c member
  obtain ⟨b,-,inByte⟩ := List.mem_flatMap.mp member
  rcases List.mem_cons.mp inByte with rfl | last
  · exact ⟨_,rfl⟩
  · exact ⟨_,List.mem_singleton.mp last⟩

/-! ### Separators -/

/-- A text that no separator can be found in. -/
def Clean (text : List Char) : Prop := ',' ∉ text ∧ '\n' ∉ text ∧ '\r' ∉ text

private theorem hexDigit_clean : ∀ nibble, hexDigit nibble ≠ ',' ∧ hexDigit nibble ≠ '\n' ∧ hexDigit nibble ≠ '\r' := by
  decide

/-- Hexadecimal digits are no separators. -/
theorem hexOf_clean (bytes : List Byte) : Clean (hexOf bytes) := by
  have digits : ∀ {c : Char}, (∀ nibble, hexDigit nibble ≠ c) → c ∉ hexOf bytes := by
    intro c other member
    obtain ⟨nibble,same⟩ := hexOf_digits bytes c member
    exact other nibble same.symm
  exact ⟨digits fun nibble => (hexDigit_clean nibble).1,digits fun nibble => (hexDigit_clean nibble).2.1,
    digits fun nibble => (hexDigit_clean nibble).2.2⟩

/-- Decimal digits are no separators. -/
theorem decimal_clean (n : Nat) : Clean (decimal n) := by
  have digits : ∀ {c : Char}, c.isDigit = false → c ∉ decimal n := by
    intro c other member
    rw [decimal_isDigit c member] at other
    cases other
  exact ⟨digits rfl,digits rfl,digits rfl⟩

theorem hexOf_no_break (bytes : List Byte) : '\n' ∉ hexOf bytes ∧ '\r' ∉ hexOf bytes := (hexOf_clean bytes).2

theorem decimal_no_break (n : Nat) : '\n' ∉ decimal n ∧ '\r' ∉ decimal n := (decimal_clean n).2

/-! ### White space and lines -/

/-- The characters with the property `White_Space`. -/
def whiteSpace (c : Char) : Bool :=
  (9 ≤ c.toNat && c.toNat ≤ 13) || c.toNat = 32 || c.toNat = 0x85 || c.toNat = 0xA0 || c.toNat = 0x1680 ||
    (0x2000 ≤ c.toNat && c.toNat ≤ 0x200A) || c.toNat = 0x2028 || c.toNat = 0x2029 || c.toNat = 0x202F ||
    c.toNat = 0x205F || c.toNat = 0x3000

/-- The text without the white space around it. -/
def trim (cs : List Char) : List Char := ((cs.dropWhile whiteSpace).reverse.dropWhile whiteSpace).reverse

theorem isDigit_not_whiteSpace {c : Char} (digit : c.isDigit = true) : whiteSpace c = false := by
  have range : 48 ≤ c.toNat ∧ c.toNat ≤ 57 := by
    simpa [Char.isDigit,UInt32.le_iff_toNat_le] using digit
  simp only [whiteSpace,Bool.or_eq_false_iff,Bool.and_eq_false_iff,decide_eq_false_iff_not]
  omega

private theorem dropWhile_none {p : Char → Bool} {cs : List Char} (none_ : ∀ c ∈ cs, p c = false) :
    cs.dropWhile p = cs := by
  cases cs with
  | nil => rfl
  | cons c rest => rw [List.dropWhile_cons_of_neg (by simp [none_ c List.mem_cons_self])]

/-- A text without white space has none around it. -/
theorem trim_bare {cs : List Char} (bare : ∀ c ∈ cs, whiteSpace c = false) : trim cs = cs := by
  unfold trim
  rw [dropWhile_none bare,dropWhile_none fun c member => bare c (List.mem_reverse.mp member),List.reverse_reverse]

/-- Digits have no white space around them. -/
theorem trim_digits {cs : List Char} (digits : ∀ c ∈ cs, c.isDigit = true) : trim cs = cs :=
  trim_bare fun c member => isDigit_not_whiteSpace (digits c member)

/-- A line that was ended by a line feed, without a carriage return before it. -/
def chomp (line : List Char) : List Char := if line.getLast? = some '\r' then line.dropLast else line

/-- The lines of a text. The last one need not be ended. -/
def lines (text : List Char) : List (List Char) :=
  let pieces := text.splitOn '\n'
  pieces.dropLast.map chomp ++ (if pieces.getLast? = some [] then [] else pieces.getLast?.toList)

/-- The first line of a text, and the others. -/
theorem lines_chomp {line : List Char} (bare : '\n' ∉ line) (rest : List Char) :
    lines (line ++ '\n' :: rest) = chomp line :: lines rest := by
  have pieces : (line ++ '\n' :: rest).splitOn '\n' = line :: rest.splitOn '\n' :=
    List.splitOn_append_cons_self_of_not_mem bare rest
  obtain ⟨first,more,split⟩ := List.exists_cons_of_ne_nil (List.splitOn_ne_nil '\n' rest)
  simp only [lines,pieces,split,List.dropLast_cons_cons,List.map_cons,List.getLast?_cons_cons,List.cons_append]

theorem lines_cons {line : List Char} (bare : '\n' ∉ line) (ended : line.getLast? ≠ some '\r') (rest : List Char) :
    lines (line ++ '\n' :: rest) = line :: lines rest := by
  rw [lines_chomp bare,chomp,if_neg ended]

/-- A piece of a text that is split is of the text and without separator. -/
theorem splitOn_pieces {text piece : List Char} {c : Char} (member : piece ∈ text.splitOn c) :
    c ∉ piece ∧ ∀ x ∈ piece, x ∈ text := by
  induction text generalizing piece with
  | nil =>
    rw [List.splitOn_nil,List.mem_singleton] at member
    subst member
    exact ⟨nofun,nofun⟩
  | cons d rest ih =>
    obtain ⟨first,more,split⟩ := List.exists_cons_of_ne_nil (List.splitOn_ne_nil c rest)
    have inRest : ∀ {piece}, piece ∈ first :: more → c ∉ piece ∧ ∀ x ∈ piece, x ∈ d :: rest := by
      intro piece inside
      obtain ⟨bare,part⟩ := ih (split ▸ inside)
      exact ⟨bare,fun x here => List.mem_cons_of_mem _ (part x here)⟩
    rw [List.splitOn_cons_eq_if_modifyHead,split] at member
    by_cases same : d = c
    · rw [if_pos (by simpa using same)] at member
      rcases List.mem_cons.mp member with rfl | later
      · exact ⟨nofun,nofun⟩
      · exact inRest later
    · rw [if_neg (by simpa using same)] at member
      rcases List.mem_cons.mp member with rfl | later
      · obtain ⟨bare,part⟩ := inRest List.mem_cons_self
        refine ⟨?_,?_⟩
        · intro here
          rcases List.mem_cons.mp here with sep | inside
          · exact same sep.symm
          · exact bare inside
        · intro x here
          rcases List.mem_cons.mp here with rfl | inside
          · exact List.mem_cons_self
          · exact part x inside
      · exact inRest (List.mem_cons_of_mem _ later)

/-- A line of a text has no line feed. -/
theorem lines_bare {text line : List Char} (member : line ∈ lines text) : '\n' ∉ line := by
  have chomped : ∀ piece : List Char, '\n' ∉ piece → '\n' ∉ chomp piece := by
    intro piece bare here
    unfold chomp at here
    split at here
    · exact bare (List.dropLast_subset _ here)
    · exact bare here
  unfold lines at member
  rcases List.mem_append.mp member with before | last
  · obtain ⟨piece,inside,rfl⟩ := List.mem_map.mp before
    exact chomped piece (splitOn_pieces (List.dropLast_subset _ inside)).1
  · split at last
    · cases last
    · exact (splitOn_pieces (List.mem_of_getLast? (Option.mem_toList.mp last))).1

/-- A text without a line feed is one line, or none. -/
theorem lines_last {line : List Char} (bare : '\n' ∉ line) : lines line = if line = [] then [] else [line] := by
  have pieces : line.splitOn '\n' = [line] := List.splitOn_eq_singleton bare
  simp only [lines,pieces,List.dropLast_singleton,List.map_nil,List.nil_append,List.getLast?_singleton,
    Option.some.injEq,Option.toList_some]

/-- A text that was cut ends within the first part, or goes on after it. -/
theorem prefix_cases {text first rest : List Char} {c : Char} (cut : text <+: first ++ c :: rest) :
    text <+: first ∨ ∃ more, text = first ++ c :: more ∧ more <+: rest := by
  induction first generalizing text with
  | nil =>
    rcases List.prefix_cons_iff.mp cut with rfl | ⟨more,rfl,onward⟩
    · exact .inl List.nil_prefix
    · exact .inr ⟨more,rfl,onward⟩
  | cons d first ih =>
    rcases List.prefix_cons_iff.mp cut with rfl | ⟨more,rfl,onward⟩
    · exact .inl List.nil_prefix
    · rcases ih onward with inside | ⟨tail,rfl,after⟩
      · exact .inl (List.cons_prefix_cons.mpr ⟨rfl,inside⟩)
      · exact .inr ⟨tail,rfl,after⟩

/-- What is in a list of pieces put together is a separator or in a piece. -/
theorem mem_intercalate {pieces : List (List Char)} {c separator : Char} (member : c ∈ [separator].intercalate pieces) :
    c = separator ∨ ∃ piece ∈ pieces, c ∈ piece := by
  induction pieces with
  | nil => cases member
  | cons piece rest ih =>
    cases rest with
    | nil => exact .inr ⟨piece,List.mem_singleton_self _,by simpa using member⟩
    | cons next more =>
      rw [List.intercalate_cons_cons,List.mem_append,List.mem_append] at member
      rcases member with (here | between) | later
      · exact .inr ⟨piece,List.mem_cons_self,here⟩
      · exact .inl (List.mem_singleton.mp between)
      · rcases ih later with same | ⟨part,inRest,inPart⟩
        · exact .inl same
        · exact .inr ⟨part,List.mem_cons_of_mem _ inRest,inPart⟩

/-! ### Rows of columns -/

/-- Columns with commas between them. -/
def csvRow (columns : List (List Char)) : List Char := [','].intercalate columns

/-- Rows, each ended by a line feed. -/
def csvRows {E : Type*} (columns : E → List (List Char)) (entries : List E) : List Char :=
  entries.flatMap fun e => csvRow (columns e) ++ ['\n']

theorem splitOn_csvRow {columns : List (List Char)} (clean : ∀ column ∈ columns, Clean column) (some_ : columns ≠ []) :
    (csvRow columns).splitOn ',' = columns :=
  List.splitOn_intercalate ',' (fun column member => (clean column member).1) some_

/-- A row of clean columns is one line. -/
theorem csvRow_line {columns : List (List Char)} (clean : ∀ column ∈ columns, Clean column) :
    '\n' ∉ csvRow columns ∧ (csvRow columns).getLast? ≠ some '\r' := by
  have only : ∀ {c : Char}, c ≠ ',' → (∀ column ∈ columns, c ∉ column) → c ∉ csvRow columns := by
    intro c other absent member
    rcases mem_intercalate member with same | ⟨column,inRow,inColumn⟩
    · exact other same
    · exact absent column inRow inColumn
  refine ⟨only (by decide) fun column member => (clean column member).2.1,fun last => ?_⟩
  exact only (by decide) (fun column member => (clean column member).2.2) (List.mem_of_getLast? last)

/-- Rows of clean columns are as many lines. -/
theorem lines_csvRows {E : Type*} {columns : E → List (List Char)} (clean : ∀ e, ∀ column ∈ columns e, Clean column)
    (entries : List E) : lines (csvRows columns entries) = entries.map fun e => csvRow (columns e) := by
  induction entries with
  | nil => rfl
  | cons e rest ih =>
    have laidOut : csvRows columns (e :: rest) = csvRow (columns e) ++ '\n' :: csvRows columns rest := by simp [csvRows]
    obtain ⟨bare,ended⟩ := csvRow_line (clean e)
    rw [laidOut,lines_cons bare ended,ih,List.map_cons]

/-- Rows that read back one by one read back together. -/
theorem filterMap_csvRows {E : Type*} {columns : E → List (List Char)} {read : List Char → Option E}
    (readRow : ∀ e, read (csvRow (columns e)) = some e) (entries : List E) :
    (entries.map fun e => csvRow (columns e)).filterMap read = entries := by
  rw [List.filterMap_map]
  exact (List.filterMap_congr fun e _ => readRow e).trans List.filterMap_some

end Directswarm.Text
