import Directswarm.Wire

/-!
Messages as lists of fields. A field is its number with a number or with a byte
string, and a message is its fields one after the other. What is encoded is read
back as it was (`readFields_encode`). A reader that walks over a message and skips
what it does not know is compared with the list (`readFields_cons`).
-/
namespace Directswarm.Messages
open Directswarm.Text Directswarm.Wire

/-- What a field holds. -/
inductive Payload
  | varint (value : Nat)
  | bytes (data : List Byte)
  deriving DecidableEq

/-- A field. -/
structure Field where
  number : Nat
  payload : Payload
  deriving DecidableEq

/-- The number of a field and its wire type. -/
def Field.tag (f : Field) : Nat :=
  match f.payload with
  | .varint _ => 8 * f.number
  | .bytes _ => 8 * f.number + 2

/-- Numbers of 64 bits, and strings whose length is one. -/
def Field.Fits (f : Field) : Prop :=
  f.number < 2 ^ 61 ∧
    match f.payload with
    | .varint value => value < 2 ^ 64
    | .bytes data => data.length < 2 ^ 64

def Payload.encode : Payload → List Byte
  | .varint value => encodeVarint value
  | .bytes data => encodeDelimited data

def Field.encode (f : Field) : List Byte := encodeVarint f.tag ++ f.payload.encode

def encodeFields (fields : List Field) : List Byte := fields.flatMap Field.encode

/-- The field at the front of a message, when it is of one of the two wire types. -/
def readField (body : List Byte) : Option (Field × List Byte) := do
  let (tag,rest) ← decodeVarint body
  match tag &&& 0x7 with
  | 2 =>
    let (data,rest) ← decodeDelimited rest
    some (⟨tag >>> 3,.bytes data⟩,rest)
  | 0 =>
    let (value,rest) ← decodeVarint rest
    some (⟨tag >>> 3,.varint value⟩,rest)
  | _ => none

/-- A field is a byte at least, so the length of a message is fuel enough. -/
def readFrom : Nat → List Byte → Option (List Field)
  | _, [] => some []
  | 0, _ :: _ => none
  | fuel + 1, b :: rest => do
    let (field,rest) ← readField (b :: rest)
    let fields ← readFrom fuel rest
    some (field :: fields)

def readFields (body : List Byte) : Option (List Field) := readFrom body.length body

/-! ### What is left -/

theorem decodeFrom_shorter {i value n : Nat} {buf rest : List Byte} (read : decodeFrom i value buf = some (n,rest)) :
    rest.length < buf.length := by
  induction buf generalizing i value with
  | nil => cases read
  | cons byte more ih =>
    rw [decodeFrom] at read
    split at read
    · cases read
    · simp only at read
      split at read
      · cases read
        exact Nat.lt_succ_self _
      · exact (ih read).trans (Nat.lt_succ_self _)

theorem decodeVarint_shorter {n : Nat} {buf rest : List Byte} (read : decodeVarint buf = some (n,rest)) :
    rest.length < buf.length := decodeFrom_shorter read

theorem decodeDelimited_shorter {data buf rest : List Byte} (read : decodeDelimited buf = some (data,rest)) :
    rest.length < buf.length := by
  obtain ⟨⟨len,after⟩,length,taken⟩ := Option.bind_eq_some_iff.mp read
  simp only at taken
  split at taken
  · cases taken
    have shorter := decodeVarint_shorter length
    rw [List.length_drop]
    omega
  · cases taken

/-- What the front of a message is when a field is read there. -/
theorem readField_cases {field : Field} {body rest : List Byte} (read : readField body = some (field,rest)) :
    ∃ tag after, decodeVarint body = some (tag,after) ∧
      ((tag &&& 0x7 = 2 ∧ ∃ data, decodeDelimited after = some (data,rest) ∧ field = ⟨tag >>> 3,.bytes data⟩) ∨
        (tag &&& 0x7 = 0 ∧ ∃ value, decodeVarint after = some (value,rest) ∧ field = ⟨tag >>> 3,.varint value⟩)) := by
  obtain ⟨⟨tag,after⟩,tagged,payload⟩ := Option.bind_eq_some_iff.mp read
  refine ⟨tag,after,tagged,?_⟩
  simp only at payload
  split at payload
  · rename_i wire
    obtain ⟨⟨data,left⟩,delimited,same⟩ := Option.bind_eq_some_iff.mp payload
    cases same
    exact .inl ⟨wire,data,delimited,rfl⟩
  · rename_i wire
    obtain ⟨⟨value,left⟩,number,same⟩ := Option.bind_eq_some_iff.mp payload
    cases same
    exact .inr ⟨wire,value,number,rfl⟩
  · cases payload

theorem readField_shorter {field : Field} {body rest : List Byte} (read : readField body = some (field,rest)) :
    rest.length < body.length := by
  obtain ⟨tag,after,tagged,⟨-,data,delimited,-⟩ | ⟨-,value,number,-⟩⟩ := readField_cases read
  · exact (decodeDelimited_shorter delimited).trans (decodeVarint_shorter tagged)
  · exact (decodeVarint_shorter number).trans (decodeVarint_shorter tagged)

/-- More fuel than bytes makes no difference. -/
theorem readFrom_fuel {fuel : Nat} {body : List Byte} (enough : body.length ≤ fuel) : readFrom fuel body = readFields body := by
  induction fuel using Nat.strongRecOn generalizing body with
  | _ fuel ih =>
    cases body with
    | nil => cases fuel <;> rfl
    | cons b rest =>
      cases fuel with
      | zero => cases enough
      | succ fuel =>
        rw [readFields,List.length_cons,readFrom,readFrom]
        cases front : readField (b :: rest) with
        | none => rfl
        | some read =>
          have shorter := readField_shorter front
          rw [List.length_cons] at enough shorter
          simp only [Option.bind_eq_bind,Option.bind_some]
          rw [ih fuel (Nat.lt_succ_self _) (by omega),ih rest.length (by omega) (by omega)]

/-- The first field of a message, and the others. -/
theorem readFields_cons {body : List Byte} {field : Field} {fields : List Field} :
    readFields body = some (field :: fields) ↔ ∃ rest, readField body = some (field,rest) ∧ readFields rest = some fields := by
  cases body with
  | nil =>
    constructor
    · intro read; cases read
    · rintro ⟨rest,read,-⟩; cases read
  | cons b more =>
    rw [readFields,List.length_cons,readFrom]
    constructor
    · intro read
      obtain ⟨⟨first,rest⟩,front,onward⟩ := Option.bind_eq_some_iff.mp read
      obtain ⟨others,after,same⟩ := Option.bind_eq_some_iff.mp onward
      cases same
      have shorter := readField_shorter front
      rw [List.length_cons] at shorter
      exact ⟨rest,front,by rw [← readFrom_fuel (by omega : rest.length ≤ more.length)]; exact after⟩
    · rintro ⟨rest,front,after⟩
      have shorter := readField_shorter front
      rw [List.length_cons] at shorter
      rw [front]
      simp only [Option.bind_eq_bind,Option.bind_some]
      rw [readFrom_fuel (by omega),after]
      rfl

theorem readFields_nil {body : List Byte} : readFields body = some [] ↔ body = [] := by
  constructor
  · intro read
    cases body with
    | nil => rfl
    | cons b more =>
      rw [readFields,List.length_cons,readFrom] at read
      obtain ⟨first,-,onward⟩ := Option.bind_eq_some_iff.mp read
      obtain ⟨others,-,same⟩ := Option.bind_eq_some_iff.mp onward
      cases same
  · rintro rfl
    rfl

/-! ### What is encoded is read back -/

theorem Field.tag_bits (f : Field) :
    (f.tag &&& 0x7 = match f.payload with | .varint _ => 0 | .bytes _ => 2) ∧ f.tag >>> 3 = f.number := by
  have low : f.tag &&& 0x7 = f.tag % 8 := Nat.and_two_pow_sub_one_eq_mod _ 3
  have high : f.tag >>> 3 = f.tag / 8 := Nat.shiftRight_eq_div_pow _ 3
  rw [low,high]
  obtain ⟨number,payload⟩ := f
  cases payload with
  | varint value => exact ⟨by simp only [Field.tag]; omega,by simp only [Field.tag]; omega⟩
  | bytes data => exact ⟨by simp only [Field.tag]; omega,by simp only [Field.tag]; omega⟩

theorem Field.tag_lt {f : Field} (fits : f.Fits) : f.tag < 2 ^ 64 := by
  obtain ⟨number,payload⟩ := f
  have small : number < 2 ^ 61 := fits.1
  cases payload <;> simp only [Field.tag] <;> omega

theorem readField_encode {f : Field} (fits : f.Fits) (rest : List Byte) : readField (f.encode ++ rest) = some (f,rest) := by
  obtain ⟨wire,number⟩ := f.tag_bits
  rw [readField,Field.encode,List.append_assoc,decodeVarint_encode (Field.tag_lt fits)]
  simp only [Option.bind_eq_bind,Option.bind_some,wire,number]
  obtain ⟨n,payload⟩ := f
  cases payload with
  | varint value =>
    have word : value < 2 ^ 64 := fits.2
    simp only [Payload.encode,decodeVarint_encode word,Option.bind_some]
  | bytes data =>
    have word : data.length < 2 ^ 64 := fits.2
    simp only [Payload.encode,decodeDelimited_encode word,Option.bind_some]

theorem readFields_encode {fields : List Field} (fit : ∀ f ∈ fields, f.Fits) :
    readFields (encodeFields fields) = some fields := by
  induction fields with
  | nil => rfl
  | cons f rest ih =>
    refine readFields_cons.mpr ⟨encodeFields rest,?_,ih fun g member => fit g (List.mem_cons_of_mem _ member)⟩
    rw [encodeFields,List.flatMap_cons]
    exact readField_encode (fit f List.mem_cons_self) _

end Directswarm.Messages
