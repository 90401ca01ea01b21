import Mathlib
import Directswarm.Cheques
import Directswarm.Maps
import Directswarm.Text

/-!
The text form of the ledger (`ledger.rs`): a JSON object from the hexadecimal
address of a beneficiary to its decimal cumulative, written entry by entry by
`persist_map` and read leniently by `load_map`, which splits the text at its
quotes. What is written is what is read (`loadMap_body`), in whatever order the
map was enumerated. The numerals are those of the 256-bit integer library, of
which only `U256Text` is assumed.
-/
namespace Directswarm.LedgerText
open Directswarm.Text Directswarm.Maps Directswarm.Cheques

/-- Writing and reading 256-bit numerals: what is written are digits, and they
    read back. -/
structure U256Text where
  display : U256 → List Char
  fromDecStr : List Char → Option U256
  display_isDigit : ∀ v, ∀ c ∈ display v, c.isDigit = true
  fromDecStr_display : ∀ v, fromDecStr (display v) = some v

/-- The numerals themselves. -/
def plainText : U256Text where
  display v := decimal v.val
  fromDecStr cs := (fromDecimal cs).bind fun n => if fits : n < 2 ^ 256 then some ⟨n,fits⟩ else none
  display_isDigit _ := decimal_isDigit
  fromDecStr_display v := by simp [fromDecimal_decimal]

/-- The address of a beneficiary. -/
abbrev Address := List.Vector Byte 20

/-- A key of the map: forty hexadecimal digits in lower case. -/
structure HexKey where
  text : List Char
  length : text.length = 40
  lower : ∀ c ∈ text, ∃ nibble, c = hexDigit nibble
  deriving DecidableEq

/-- `hex::encode` of an address. -/
def hexEncode (beneficiary : Address) : HexKey where
  text := hexOf beneficiary.toList
  length := by rw [hexOf_length,List.Vector.toList_length]
  lower := hexOf_digits _

theorem hexEncode_injective : Function.Injective hexEncode := by
  intro a b same
  have text := congrArg (fun key => parseHex key.text) same
  simp only [hexEncode,parseHex_hexOf,Option.some.injEq] at text
  exact List.Vector.eq a b text

/-- The map of a ledger. -/
abbrev LedgerMap := Finmap fun _ : HexKey => U256

/-- An enumeration of the entries of a map. -/
abbrev Entries := List (Σ _ : HexKey, U256)

/-! ### Writing -/

/-- One entry. -/
def item (codec : U256Text) (e : Σ _ : HexKey, U256) : List Char :=
  "  ".toList ++ '"' :: (e.1.text ++ '"' :: (": ".toList ++ '"' :: (codec.display e.2 ++ ['"'])))

/-- The entries after the first one, and the end. -/
def moreItems (codec : U256Text) : Entries → List Char
  | [] => "\n\x7d".toList
  | e :: rest => ",\n".toList ++ item codec e ++ moreItems codec rest

/-- The text that `persist_map` writes. -/
def body (codec : U256Text) : Entries → List Char
  | [] => "\x7b\n".toList ++ "\n\x7d".toList
  | e :: rest => "\x7b\n".toList ++ item codec e ++ moreItems codec rest

/-! ### Reading -/

/-- The keys and values among the pieces between quotes. -/
def quoted : List (List Char) → List (List Char × List Char)
  | _ :: key :: _ :: value :: rest => (key,value) :: quoted rest
  | _ => []

/-- The key, when it is forty hexadecimal digits of either case. -/
def keyOf (text : List Char) : Option HexKey :=
  if shape : text.length = 40 ∧ ∀ c ∈ text, (hexValue c).isSome then
    some ⟨text.map Char.toLower,by rw [List.length_map,shape.1],by
      intro c member
      obtain ⟨d,inText,rfl⟩ := List.mem_map.mp member
      obtain ⟨nibble,read⟩ := Option.isSome_iff_exists.mp (shape.2 d inText)
      exact ⟨nibble,toLower_of_hexValue read⟩⟩
  else none

/-- One turn of the loop of `load_map`. -/
def loadEntry (codec : U256Text) (out : LedgerMap) (kv : List Char × List Char) : LedgerMap :=
  match keyOf kv.1 with
  | none => out
  | some key =>
    match codec.fromDecStr (trim kv.2) with
    | none => out
    | some v => out.insert key v

/-- `load_map`, on the text of the file; a missing or unreadable file is empty. -/
def loadMap (codec : U256Text) : Option (List Char) → LedgerMap
  | none => ∅
  | some text => (quoted (text.splitOn '"')).foldl (loadEntry codec) ∅

/-! ### What is written is what is read -/

theorem keyOf_text (key : HexKey) : keyOf key.text = some key := by
  have shape : key.text.length = 40 ∧ ∀ c ∈ key.text, (hexValue c).isSome := by
    refine ⟨key.length,fun c member => ?_⟩
    obtain ⟨nibble,rfl⟩ := key.lower c member
    rw [hexValue_hexDigit]; rfl
  have same : key.text.map Char.toLower = key.text := by
    conv_rhs => rw [← List.map_id key.text]
    refine List.map_congr_left fun c member => ?_
    obtain ⟨nibble,rfl⟩ := key.lower c member
    exact hexDigit_isLower nibble
  unfold keyOf
  rw [dif_pos shape]
  congr 1
  cases key
  simp only [HexKey.mk.injEq]
  exact same

private theorem hexDigit_not_quote : ∀ nibble, hexDigit nibble ≠ '"' := by decide

theorem quote_notMem_key (key : HexKey) : '"' ∉ key.text := by
  intro member
  obtain ⟨nibble,same⟩ := key.lower '"' member
  exact hexDigit_not_quote nibble same.symm

theorem quote_notMem_display (codec : U256Text) (v : U256) : '"' ∉ codec.display v := by
  intro member
  have digit := codec.display_isDigit v '"' member
  simp at digit

/-- The pieces of an entry: what leads to it, its key, the colon, its value. -/
theorem splitOn_item (codec : U256Text) (e : Σ _ : HexKey, U256) {lead : List Char} (clean : '"' ∉ lead)
    (tail : List Char) : (lead ++ item codec e ++ tail).splitOn '"' =
      (lead ++ "  ".toList) :: e.1.text :: ": ".toList :: codec.display e.2 :: tail.splitOn '"' := by
  have laidOut : lead ++ item codec e ++ tail = (lead ++ "  ".toList) ++ '"' :: (e.1.text ++ '"' :: (": ".toList ++
      '"' :: (codec.display e.2 ++ '"' :: tail))) := by simp [item]
  have indented : '"' ∉ lead ++ "  ".toList := by simpa using clean
  rw [laidOut,List.splitOn_append_cons_self_of_not_mem indented,
    List.splitOn_append_cons_self_of_not_mem (quote_notMem_key e.1),
    List.splitOn_append_cons_self_of_not_mem (by simp : '"' ∉ ": ".toList),
    List.splitOn_append_cons_self_of_not_mem (quote_notMem_display codec e.2)]

/-- The key and the value of an entry as they stand in the text. -/
def written (codec : U256Text) (e : Σ _ : HexKey, U256) : List Char × List Char := (e.1.text,codec.display e.2)

theorem quoted_moreItems (codec : U256Text) (entries : Entries) :
    quoted ((moreItems codec entries).splitOn '"') = entries.map (written codec) := by
  induction entries with
  | nil => rw [moreItems,List.splitOn_eq_singleton (by decide)]; rfl
  | cons e rest ih =>
    rw [moreItems,splitOn_item codec e (by simp),quoted,ih]; rfl

theorem quoted_body (codec : U256Text) (entries : Entries) :
    quoted ((body codec entries).splitOn '"') = entries.map (written codec) := by
  cases entries with
  | nil => rw [body,List.splitOn_eq_singleton (by decide)]; rfl
  | cons e rest => rw [body,splitOn_item codec e (by simp),quoted,quoted_moreItems]; rfl

theorem loadEntry_written (codec : U256Text) (out : LedgerMap) (e : Σ _ : HexKey, U256) :
    loadEntry codec out (written codec e) = out.insert e.1 e.2 := by
  simp only [loadEntry,written,keyOf_text,trim_digits (codec.display_isDigit e.2),codec.fromDecStr_display]

theorem loadMap_eq_insertAll (codec : U256Text) (entries : Entries) :
    loadMap codec (some (body codec entries)) = insertAll entries ∅ := by
  simp only [loadMap,quoted_body,List.foldl_map,loadEntry_written]; rfl

/-- Reading the text of a map's entries, enumerated in any order, gives the map. -/
theorem loadMap_body (codec : U256Text) {entries : Entries} {map : LedgerMap} (all : (entries : Multiset _) = map.entries) :
    loadMap codec (some (body codec entries)) = map := by
  rw [loadMap_eq_insertAll,insertAll_entries all]

end Directswarm.LedgerText
