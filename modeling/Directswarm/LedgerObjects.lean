import Directswarm.LedgerText

/-!
What `load_map` makes of files that others wrote. It is no reader of JSON: it
splits the text at its quotes and takes the pieces four at a time. On the text of
an object of plain strings, with white space anywhere between the tokens, the
pieces stay in step with the members whatever stands in them, so each address has
the value of its last member that reads as a number (`lookup_object`), and none
when there is no such member.
-/
namespace Directswarm.LedgerObjects
open Directswarm.Text Directswarm.Maps Directswarm.Cheques Directswarm.LedgerText

/-! ### Objects of plain strings -/

/-- White space between two tokens. -/
structure Gap where
  text : List Char
  blank : ∀ c ∈ text, c = ' ' ∨ c = '\t' ∨ c = '\n' ∨ c = '\r'

/-- What stands between the quotes of a string without escapes. -/
structure Plain where
  text : List Char
  plain : ∀ c ∈ text, c ≠ '"' ∧ c ≠ '\\' ∧ 0x20 ≤ c.toNat

/-- A key and its value, with the white space around the tokens. -/
structure Member where
  before : Gap
  key : Plain
  beforeColon : Gap
  afterColon : Gap
  value : Plain
  after : Gap

def Member.text (m : Member) : List Char :=
  m.before.text ++ '"' :: (m.key.text ++ '"' :: (m.beforeColon.text ++ ':' :: (m.afterColon.text ++
    '"' :: (m.value.text ++ '"' :: m.after.text))))

/-- What stands between the braces. -/
inductive Contents where
  | empty (gap : Gap)
  | members (first : Member) (rest : List Member)

/-- The members after the first one. -/
def moreMembers : List Member → List Char
  | [] => []
  | m :: rest => ',' :: (m.text ++ moreMembers rest)

def Contents.text : Contents → List Char
  | .empty gap => gap.text
  | .members first rest => first.text ++ moreMembers rest

def Contents.all : Contents → List Member
  | .empty _ => []
  | .members first rest => first :: rest

/-- The text of an object. -/
structure ObjectText where
  lead : Gap
  contents : Contents
  trail : Gap

def ObjectText.text (object : ObjectText) : List Char :=
  object.lead.text ++ '\x7b' :: (object.contents.text ++ '\x7d' :: object.trail.text)

/-- The key and the value as `load_map` finds them. -/
def Member.pair (m : Member) : List Char × List Char := (m.key.text,m.value.text)

/-! ### The pieces between quotes -/

theorem Gap.no_quote (gap : Gap) : '"' ∉ gap.text := by
  intro member
  have blank := gap.blank '"' member
  revert blank
  decide

theorem Plain.no_quote (string : Plain) : '"' ∉ string.text := fun member => (string.plain '"' member).1 rfl

/-- A member is three pieces and the end of a piece that began before it. -/
theorem splitOn_member {lead : List Char} (clean : '"' ∉ lead) (m : Member) (tail : List Char) :
    (lead ++ (m.text ++ tail)).splitOn '"' = (lead ++ m.before.text) :: m.key.text ::
      (m.beforeColon.text ++ ':' :: m.afterColon.text) :: m.value.text :: (m.after.text ++ tail).splitOn '"' := by
  have laidOut : lead ++ (m.text ++ tail) = (lead ++ m.before.text) ++ '"' :: (m.key.text ++ '"' ::
      ((m.beforeColon.text ++ ':' :: m.afterColon.text) ++ '"' :: (m.value.text ++ '"' :: (m.after.text ++ tail)))) := by
    simp [Member.text]
  have begun : '"' ∉ lead ++ m.before.text := by
    rw [List.mem_append,not_or]
    exact ⟨clean,m.before.no_quote⟩
  have between : '"' ∉ m.beforeColon.text ++ ':' :: m.afterColon.text := by
    rw [List.mem_append,not_or,List.mem_cons,not_or]
    exact ⟨m.beforeColon.no_quote,by decide,m.afterColon.no_quote⟩
  rw [laidOut,List.splitOn_append_cons_self_of_not_mem begun,
    List.splitOn_append_cons_self_of_not_mem m.key.no_quote,
    List.splitOn_append_cons_self_of_not_mem between,
    List.splitOn_append_cons_self_of_not_mem m.value.no_quote]

/-- However many members there are, four pieces are taken for each. -/
theorem quoted_members {lead tail : List Char} (clean : '"' ∉ lead) (ends : '"' ∉ tail) (m : Member) (rest : List Member) :
    quoted ((lead ++ (m.text ++ (moreMembers rest ++ tail))).splitOn '"') = (m :: rest).map Member.pair := by
  induction rest generalizing lead m with
  | nil =>
    have last : '"' ∉ m.after.text ++ ([] ++ tail) := by
      rw [List.nil_append,List.mem_append,not_or]
      exact ⟨m.after.no_quote,ends⟩
    rw [moreMembers,splitOn_member clean,List.splitOn_eq_singleton last]
    rfl
  | cons next rest ih =>
    have comma : '"' ∉ m.after.text ++ [','] := by
      rw [List.mem_append,not_or]
      exact ⟨m.after.no_quote,by decide⟩
    have onward : m.after.text ++ (moreMembers (next :: rest) ++ tail) =
        (m.after.text ++ [',']) ++ (next.text ++ (moreMembers rest ++ tail)) := by
      simp [moreMembers]
    rw [splitOn_member clean,onward,quoted,ih comma next]
    rfl

theorem quoted_object (object : ObjectText) :
    quoted (object.text.splitOn '"') = object.contents.all.map Member.pair := by
  obtain ⟨lead,contents,trail⟩ := object
  have closing : '"' ∉ '\x7d' :: trail.text := by
    rw [List.mem_cons,not_or]
    exact ⟨by decide,trail.no_quote⟩
  have opening : '"' ∉ lead.text ++ ['\x7b'] := by
    rw [List.mem_append,not_or]
    exact ⟨lead.no_quote,by decide⟩
  cases contents with
  | empty gap =>
    have bare : '"' ∉ lead.text ++ '\x7b' :: (gap.text ++ '\x7d' :: trail.text) := by
      intro member
      rw [List.append_cons,List.mem_append] at member
      rcases member with before | inside
      · exact opening before
      · rcases List.mem_append.mp inside with blank | after
        · exact gap.no_quote blank
        · exact closing after
    show quoted ((lead.text ++ '\x7b' :: (gap.text ++ '\x7d' :: trail.text)).splitOn '"') = []
    rw [List.splitOn_eq_singleton bare]
    rfl
  | members first rest =>
    have laidOut : (ObjectText.mk lead (.members first rest) trail).text =
        (lead.text ++ ['\x7b']) ++ (first.text ++ (moreMembers rest ++ '\x7d' :: trail.text)) := by
      simp [ObjectText.text,Contents.text]
    rw [laidOut,quoted_members opening closing]
    rfl

/-! ### What the map then holds -/

/-- A key counts for an address whose forty digits it gives in either case. -/
theorem keyOf_eq_some_iff {text : List Char} {key : HexKey} :
    keyOf text = some key ↔ text.map Char.toLower = key.text := by
  constructor
  · intro read
    unfold keyOf at read
    split at read
    · cases read; rfl
    · cases read
  · intro lowered
    have shape : text.length = 40 ∧ ∀ c ∈ text, (hexValue c).isSome := by
      constructor
      · rw [← key.length,← lowered,List.length_map]
      · intro c member
        have digit : c.toLower ∈ key.text := by
          rw [← lowered]
          exact List.mem_map_of_mem member
        obtain ⟨nibble,same⟩ := key.lower _ digit
        rw [hexValue,List.find?_isSome]
        exact ⟨nibble,List.mem_finRange nibble,by rw [same,beq_self_eq_true]⟩
    rw [keyOf,dif_pos shape]
    obtain ⟨digits,length,lower⟩ := key
    cases lowered
    rfl

/-- The value that a pair gives an address, if it gives one. -/
def valueFor (codec : U256Text) (key : HexKey) (kv : List Char × List Char) : Option U256 :=
  if kv.1.map Char.toLower = key.text then codec.fromDecStr (trim kv.2) else none

theorem lookup_loadEntry (codec : U256Text) (out : LedgerMap) (kv : List Char × List Char) (key : HexKey) :
    (loadEntry codec out kv).lookup key = (valueFor codec key kv).or (out.lookup key) := by
  unfold loadEntry
  by_cases names : kv.1.map Char.toLower = key.text
  · rw [valueFor,if_pos names,keyOf_eq_some_iff.mpr names]
    cases codec.fromDecStr (trim kv.2) with
    | none => rfl
    | some v => exact Finmap.lookup_insert out
  · rw [valueFor,if_neg names,Option.none_or]
    cases read : keyOf kv.1 with
    | none => rfl
    | some other =>
      have apart : key ≠ other := by
        intro same
        subst same
        exact names (keyOf_eq_some_iff.mp read)
      cases codec.fromDecStr (trim kv.2) with
      | none => rfl
      | some v => exact Finmap.lookup_insert_of_ne out apart

/-- The last pair that gives an address a value decides. -/
theorem lookup_loadEntries (codec : U256Text) (pairs : List (List Char × List Char)) (out : LedgerMap) (key : HexKey) :
    (pairs.foldl (loadEntry codec) out).lookup key =
      (pairs.filterMap (valueFor codec key)).getLast?.or (out.lookup key) := by
  induction pairs generalizing out with
  | nil => rfl
  | cons kv rest ih =>
    rw [List.foldl_cons,ih,lookup_loadEntry,List.filterMap_cons]
    cases valueFor codec key kv with
    | none => rfl
    | some v =>
      rw [List.getLast?_cons]
      cases (rest.filterMap (valueFor codec key)).getLast? <;> rfl

/-- What is read for an address from the text of an object. -/
theorem lookup_object (codec : U256Text) (object : ObjectText) (key : HexKey) :
    (loadMap codec (some object.text)).lookup key =
      (object.contents.all.filterMap fun m => valueFor codec key m.pair).getLast? := by
  rw [loadMap,quoted_object,lookup_loadEntries,List.filterMap_map]
  exact Option.or_none

/-! ### The file round trip -/

/-- The entries of a ledger over addresses, as the map has them. -/
def encoded (entries : List (Σ _ : Address, U256)) : Entries := entries.map fun e => ⟨hexEncode e.1,e.2⟩

/-- Entries for addresses are found under their digits, and nothing else is. -/
theorem lookup_encoded (codec : U256Text) {cumulatives : Finmap fun _ : Address => U256}
    {entries : List (Σ _ : Address, U256)} (all : (entries : Multiset _) = cumulatives.entries) (key : HexKey) (v : U256) :
    (loadMap codec (some (body codec (encoded entries)))).lookup key = some v ↔
      ∃ beneficiary, hexEncode beneficiary = key ∧ cumulatives.lookup beneficiary = some v := by
  have distinct : ((encoded entries).map (·.1)).Nodup := by
    have keys : (encoded entries).map (·.1) = (entries.map (·.1)).map hexEncode := by
      rw [encoded,List.map_map,List.map_map]; rfl
    rw [keys]
    exact (keys_nodup all).map hexEncode_injective
  rw [loadMap_eq_insertAll]
  constructor
  · intro found
    rcases mem_of_lookup_insertAll found with member | before
    · obtain ⟨e,inList,same⟩ := List.mem_map.mp member
      cases same
      exact ⟨e.1,rfl,(mem_iff_lookup all).mp inList⟩
    · cases before
  · rintro ⟨beneficiary,rfl,found⟩
    have member : (⟨hexEncode beneficiary,v⟩ : Σ _ : HexKey, U256) ∈ encoded entries :=
      List.mem_map.mpr ⟨_,(mem_iff_lookup all).mpr found,rfl⟩
    exact lookup_insertAll_member distinct member ∅

/-- A ledger file reads back as the map it was written from, in whatever order
    that was enumerated, and the text of any object of plain strings as the last
    usable member for each address. -/
theorem ledger_file (codec : U256Text) :
    (∀ (map : LedgerMap) (entries : Entries), (entries : Multiset _) = map.entries →
      loadMap codec (some (body codec entries)) = map) ∧
    (∀ (cumulatives : Finmap fun _ : Address => U256) (entries : List (Σ _ : Address, U256)),
      (entries : Multiset _) = cumulatives.entries → ∀ key v,
        (loadMap codec (some (body codec (encoded entries)))).lookup key = some v ↔
          ∃ beneficiary, hexEncode beneficiary = key ∧ cumulatives.lookup beneficiary = some v) ∧
    ∀ (object : ObjectText) (key : HexKey), (loadMap codec (some object.text)).lookup key =
      (object.contents.all.filterMap fun m =>
        if m.key.text.map Char.toLower = key.text then codec.fromDecStr (trim m.value.text) else none).getLast? := by
  refine ⟨fun map entries all => loadMap_body codec all,fun cumulatives entries all => lookup_encoded codec all,?_⟩
  intro object key
  exact lookup_object codec object key

/-- An address. -/
def payee : Address := List.Vector.replicate 20 0xab

theorem plain_of_all {text : List Char}
    (fits : (text.all fun c => decide (c ≠ '"' ∧ c ≠ '\\' ∧ 0x20 ≤ c.toNat)) = true) :
    ∀ c ∈ text, c ≠ '"' ∧ c ≠ '\\' ∧ 0x20 ≤ c.toNat := by
  intro c member
  exact of_decide_eq_true (List.all_eq_true.mp fits c member)

/-- A member with a blank after its colon. -/
def spaced (key value : Plain) : Member where
  before := ⟨['\n'],by simp⟩
  key := key
  beforeColon := ⟨[],nofun⟩
  afterColon := ⟨[' '],by simp⟩
  value := value
  after := ⟨[],nofun⟩

/-- A note, the address in upper case, and the address again without a number. -/
def handmade : ObjectText where
  lead := ⟨[],nofun⟩
  contents := .members (spaced ⟨"note".toList,plain_of_all rfl⟩ ⟨"none yet".toList,plain_of_all rfl⟩)
    [spaced ⟨(List.replicate 20 ['A','B']).flatten,plain_of_all rfl⟩ ⟨" 7 ".toList,plain_of_all rfl⟩,
      spaced ⟨(List.replicate 20 ['a','b']).flatten,plain_of_all rfl⟩ ⟨"seven".toList,plain_of_all rfl⟩]
  trail := ⟨['\n'],by simp⟩

/-- One address with one cumulative, written and read, and the object read. -/
theorem ledger_file_handmade :
    loadMap plainText (some (body plainText [⟨hexEncode payee,5⟩])) = Finmap.singleton (hexEncode payee) 5 ∧
    (loadMap plainText (some (body plainText (encoded [⟨payee,5⟩])))).lookup (hexEncode payee) = some 5 ∧
    (loadMap plainText (some handmade.text)).lookup (hexEncode payee) = some 7 := by
  refine ⟨(ledger_file plainText).1 _ _ rfl,?_,?_⟩
  · exact ((ledger_file plainText).2.1 (Finmap.singleton payee 5) [⟨payee,5⟩] rfl _ _).mpr ⟨payee,rfl,rfl⟩
  · exact ((ledger_file plainText).2.2 handmade (hexEncode payee)).trans (by decide +kernel)

end Directswarm.LedgerObjects
