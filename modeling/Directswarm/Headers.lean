import Mathlib.Data.List.Flatten
import Mathlib.Data.List.Induction
import Directswarm.Proximity
import Directswarm.Wire

/-!
The headers that a storer answers a settlement with (`direct.rs`): what
`parse_settlement_headers` makes of a list of headers as they are encoded. The bound
on a value's length is put to every header, not to the two that are used, so one long
value of any other header refuses them all (`headers_meant`, `trace_refused`).
-/
namespace Directswarm.Headers
open Directswarm.Text Directswarm.Proximity Directswarm.Wire

/-! ### The parser -/

/-- What a field sets, the key or the value. -/
def assign (number : Nat) (field : List Byte) (pair : List Byte × List Byte) : List Byte × List Byte :=
  match number with
  | 1 => (field,pair.2)
  | 2 => (pair.1,field)
  | _ => pair

/-- The loop over the fields of a header. Each turn reads a tag at least, so its length
    is fuel enough. -/
def fieldsFrom : Nat → List Byte → List Byte × List Byte → Option (List Byte × List Byte)
  | _, [], pair => some pair
  | 0, _ :: _, _ => none
  | fuel + 1, b :: inner, pair => do
    let (itag,inner) ← decodeVarint (b :: inner)
    if itag &&& 0x7 ≠ 2 then none else
    let (field,inner) ← decodeDelimited inner
    fieldsFrom fuel inner (assign (itag >>> 3) field pair)

def ascii (text : String) : List Byte := text.toList.map fun c => Fin.ofNat 256 c.toNat

def exchangeKey : List Byte := ascii "exchange"
def deductionKey : List Byte := ascii "deduction"

/-- What a header sets. -/
def take (rates : Option Nat × Nat) (key value : List Byte) : Option Nat × Nat :=
  if key = exchangeKey then (some (beWord value),rates.2)
  else if key = deductionKey then (rates.1,beWord value)
  else rates

/-- The loop over the headers. -/
def headersFrom : Nat → List Byte → Option Nat × Nat → Option (Option Nat × Nat)
  | _, [], rates => some rates
  | 0, _ :: _, _ => none
  | fuel + 1, b :: rest, rates => do
    let (tag,rest) ← decodeVarint (b :: rest)
    if tag >>> 3 ≠ 1 ∨ tag &&& 0x7 ≠ 2 then none else
    let (header,rest) ← decodeDelimited rest
    let (key,value) ← fieldsFrom header.length header ([],[])
    if 32 < value.length then none else
    headersFrom fuel rest (take rates key value)

/-- `parse_settlement_headers`. -/
def parseSettlementHeaders (body : List Byte) : Option (Nat × Nat) :=
  (headersFrom body.length body (none,0)).bind fun rates => rates.1.map fun rate => (rate,rates.2)

/-! ### The encoding -/

/-- `Header`. -/
structure Header where
  key : List Byte
  value : List Byte

/-- A field of bytes, which is left out when it is empty. -/
def encodeField (number : Nat) (bytes : List Byte) : List Byte :=
  if bytes = [] then [] else encodeVarint (8 * number + 2) ++ encodeDelimited bytes

def encodeHeader (h : Header) : List Byte := encodeField 1 h.key ++ encodeField 2 h.value

/-- `Headers`. -/
def encodeHeaders (headers : List Header) : List Byte :=
  headers.flatMap fun h => encodeVarint (8 * 1 + 2) ++ encodeDelimited (encodeHeader h)

/-- The last value of a key. -/
def lastValue (key : List Byte) (headers : List Header) : Option (List Byte) :=
  ((headers.filter fun h => h.key = key).getLast?).map Header.value

/-- The rate and the deduction that the headers announce. -/
def announced (headers : List Header) : Nat × Nat :=
  (((lastValue exchangeKey headers).map beWord).getD 0,((lastValue deductionKey headers).map beWord).getD 0)

/-- The headers that the settlement uses. -/
def Header.settles (h : Header) : Bool := h.key = exchangeKey ∨ h.key = deductionKey

/-! ### What is parsed -/

theorem tag_bits (number : Nat) : 8 * number + 2 &&& 0x7 = 2 ∧ (8 * number + 2) >>> 3 = number := by
  have low : 8 * number + 2 &&& 0x7 = (8 * number + 2) % 8 := Nat.and_two_pow_sub_one_eq_mod _ 3
  have high : (8 * number + 2) >>> 3 = (8 * number + 2) / 8 := Nat.shiftRight_eq_div_pow _ 3
  constructor
  · rw [low]; omega
  · rw [high]; omega

/-- A field at the front of a header. -/
theorem fieldsFrom_field {fuel number : Nat} {bytes : List Byte} (small : 8 * number + 2 < 2 ^ 64)
    (word : bytes.length < 2 ^ 64) (rest : List Byte) (pair : List Byte × List Byte) :
    fieldsFrom (fuel + 1) (encodeVarint (8 * number + 2) ++ encodeDelimited bytes ++ rest) pair =
      fieldsFrom fuel rest (assign number bytes pair) := by
  obtain ⟨b,more,front⟩ := List.exists_cons_of_length_pos (encodeVarint_pos (8 * number + 2))
  have some_ : encodeVarint (8 * number + 2) ++ encodeDelimited bytes ++ rest = b :: (more ++ encodeDelimited bytes ++ rest) := by
    rw [front]; rfl
  have read := decodeVarint_encode small (encodeDelimited bytes ++ rest)
  rw [← List.append_assoc,some_] at read
  rw [some_,fieldsFrom,read]
  simp only [Option.bind_eq_bind,Option.bind_some,(tag_bits number).1,(tag_bits number).2,decodeDelimited_encode word,
    ne_eq,not_true_eq_false,↓reduceIte]

/-- A field that is left out where it is empty. -/
theorem fieldsFrom_encodeField {fuel : Nat} {bytes : List Byte} (number : Nat) (small : 8 * number + 2 < 2 ^ 64)
    (word : bytes.length < 2 ^ 64) (rest : List Byte) (pair : List Byte × List Byte)
    (enough : (encodeField number bytes ++ rest).length ≤ fuel) :
    ∃ left, rest.length ≤ left ∧ fieldsFrom fuel (encodeField number bytes ++ rest) pair =
      fieldsFrom left rest (if bytes = [] then pair else assign number bytes pair) := by
  by_cases none_ : bytes = []
  · rw [encodeField,if_pos none_,List.nil_append] at enough ⊢
    exact ⟨fuel,enough,by rw [if_pos none_]⟩
  · rw [encodeField,if_neg none_] at enough ⊢
    have front := encodeVarint_pos (8 * number + 2)
    simp only [List.length_append] at enough
    obtain ⟨left,rfl⟩ : ∃ left, fuel = left + 1 := ⟨fuel - 1,by omega⟩
    exact ⟨left,by omega,by rw [if_neg none_,fieldsFrom_field small word]⟩

theorem length_encodeField (number : Nat) (bytes : List Byte) : bytes.length ≤ (encodeField number bytes).length := by
  unfold encodeField
  split
  · next none_ => rw [none_]
  · simp only [encodeDelimited,List.length_append]
    omega

/-- The key and the value of a header are read back. -/
theorem fieldsFrom_header {h : Header} {fuel : Nat} (word : (encodeHeader h).length < 2 ^ 64)
    (enough : (encodeHeader h).length ≤ fuel) : fieldsFrom fuel (encodeHeader h) ([],[]) = some (h.key,h.value) := by
  have keyWord := length_encodeField 1 h.key
  have valueWord := length_encodeField 2 h.value
  simp only [encodeHeader,List.length_append] at word
  obtain ⟨left,room,first⟩ := fieldsFrom_encodeField 1 (by decide) (by omega) (encodeField 2 h.value) ([],[]) enough
  have key : (if h.key = [] then (([],[]) : List Byte × List Byte) else assign 1 h.key ([],[])) = (h.key,[]) := by
    split
    · next none_ => rw [none_]
    · rfl
  have value : (if h.value = [] then (h.key,[]) else assign 2 h.value (h.key,[])) = (h.key,h.value) := by
    split
    · next none_ => rw [none_]
    · rfl
  rw [← List.append_nil (encodeField 2 h.value)] at room
  obtain ⟨last,-,second⟩ := fieldsFrom_encodeField 2 (by decide) (by omega) [] (h.key,[]) room
  rw [List.append_nil,value] at second
  rw [encodeHeader,first,key,second]
  cases last <;> rfl

/-- A header at the front of the list. -/
theorem headersFrom_header {fuel : Nat} {h : Header} (word : (encodeHeader h).length < 2 ^ 64) (rest : List Byte)
    (rates : Option Nat × Nat) :
    headersFrom (fuel + 1) (encodeVarint (8 * 1 + 2) ++ encodeDelimited (encodeHeader h) ++ rest) rates =
      if 32 < h.value.length then none else headersFrom fuel rest (take rates h.key h.value) := by
  obtain ⟨b,more,front⟩ := List.exists_cons_of_length_pos (encodeVarint_pos (8 * 1 + 2))
  have some_ : encodeVarint (8 * 1 + 2) ++ encodeDelimited (encodeHeader h) ++ rest =
      b :: (more ++ encodeDelimited (encodeHeader h) ++ rest) := by
    rw [front]; rfl
  have read := @decodeVarint_encode (8 * 1 + 2) (by decide) (encodeDelimited (encodeHeader h) ++ rest)
  rw [← List.append_assoc,some_] at read
  rw [some_,headersFrom,read]
  simp only [Option.bind_eq_bind,Option.bind_some,(tag_bits 1).1,(tag_bits 1).2,decodeDelimited_encode word,
    fieldsFrom_header word le_rfl,ne_eq,not_true_eq_false,or_self,↓reduceIte]

/-- The headers are taken one after the other, unless a value is too long. -/
theorem headersFrom_encode (headers : List Header) {fuel : Nat} (word : (encodeHeaders headers).length < 2 ^ 64)
    (enough : (encodeHeaders headers).length ≤ fuel) (rates : Option Nat × Nat) :
    headersFrom fuel (encodeHeaders headers) rates =
      if ∀ h ∈ headers, h.value.length ≤ 32 then some (headers.foldl (fun rates h => take rates h.key h.value) rates)
      else none := by
  induction headers generalizing fuel rates with
  | nil => cases fuel <;> simp [encodeHeaders,headersFrom]
  | cons h rest ih =>
    have front := encodeVarint_pos (8 * 1 + 2)
    have cons : encodeHeaders (h :: rest) =
        encodeVarint (8 * 1 + 2) ++ encodeDelimited (encodeHeader h) ++ encodeHeaders rest := by
      simp [encodeHeaders]
    rw [cons] at word enough ⊢
    simp only [List.length_append,encodeDelimited] at word enough
    obtain ⟨left,rfl⟩ : ∃ left, fuel = left + 1 := ⟨fuel - 1,by omega⟩
    rw [headersFrom_header (by omega)]
    by_cases long : 32 < h.value.length
    · rw [if_pos long,if_neg]
      intro short
      have own := short h List.mem_cons_self
      omega
    · have own : h.value.length ≤ 32 := by omega
      rw [if_neg long,ih (by omega) (by omega)]
      simp only [List.mem_cons,forall_eq_or_imp,own,true_and,List.foldl_cons]

/-! ### What it means -/

theorem lastValue_append (key : List Byte) (headers : List Header) (h : Header) :
    lastValue key (headers ++ [h]) = if h.key = key then some h.value else lastValue key headers := by
  rw [lastValue,List.filter_append]
  by_cases same : h.key = key
  · simp [same]
  · simp [same,lastValue]

/-- What the headers leave set are the last values. -/
theorem foldl_take (headers : List Header) : headers.foldl (fun rates h => take rates h.key h.value) (none,0) =
    ((lastValue exchangeKey headers).map beWord,((lastValue deductionKey headers).map beWord).getD 0) := by
  induction headers using List.reverseRecOn with
  | nil => rfl
  | append_singleton headers h ih =>
    have apart : exchangeKey ≠ deductionKey := by decide
    rw [List.foldl_append,List.foldl_cons,List.foldl_nil,ih,take,lastValue_append,lastValue_append]
    by_cases exchange : h.key = exchangeKey
    · have other : h.key ≠ deductionKey := exchange ▸ apart
      simp [exchange,apart]
    · by_cases deduction : h.key = deductionKey
      · simp [deduction,apart.symm]
      · simp [exchange,deduction]

theorem parse_encode (headers : List Header) (word : (encodeHeaders headers).length < 2 ^ 64) :
    parseSettlementHeaders (encodeHeaders headers) =
      if ∀ h ∈ headers, h.value.length ≤ 32 then
        (lastValue exchangeKey headers).map fun value => (beWord value,((lastValue deductionKey headers).map beWord).getD 0)
      else none := by
  rw [parseSettlementHeaders,headersFrom_encode headers word le_rfl,foldl_take]
  split
  · simp [Function.comp_def]
  · rfl

theorem lastValue_some {key : List Byte} {headers : List Header} (there : ∃ h ∈ headers, h.key = key) :
    ∃ value, lastValue key headers = some value := by
  obtain ⟨h,member,same⟩ := there
  have some_ : headers.filter (fun h => h.key = key) ≠ [] :=
    List.ne_nil_of_mem (List.mem_filter.mpr ⟨member,by simpa using same⟩)
  exact ⟨_,by rw [lastValue,List.getLast?_eq_getLast_of_ne_nil some_]; rfl⟩

/-- Headers that the settlement does not use are not among the last values. -/
theorem lastValue_settles {key : List Byte} (used : key = exchangeKey ∨ key = deductionKey) (headers : List Header) :
    lastValue key (headers.filter Header.settles) = lastValue key headers := by
  rw [lastValue,lastValue,List.filter_filter]
  congr 2
  refine List.filter_congr fun h _ => ?_
  by_cases same : h.key = key
  · have settles : h.settles = true := by simpa [Header.settles,same] using used
    simp [same,settles]
  · simp [same]

/-- Of headers in which the rates are of 32 bytes at most, the last rates are
    returned whatever the other headers are, exactly where no other header has a
    longer value either. -/
theorem headers_meant (headers : List Header) (word : (encodeHeaders headers).length < 2 ^ 64)
    (exchanges : ∃ h ∈ headers, h.key = exchangeKey)
    (short : ∀ h ∈ headers, h.key = exchangeKey ∨ h.key = deductionKey → h.value.length ≤ 32) :
    (parseSettlementHeaders (encodeHeaders headers) = some (announced headers) ∧
      parseSettlementHeaders (encodeHeaders headers) = parseSettlementHeaders (encodeHeaders (headers.filter Header.settles))) ↔
      ∀ h ∈ headers, h.settles = false → h.value.length ≤ 32 := by
  obtain ⟨rate,found⟩ := lastValue_some exchanges
  have meant : (lastValue exchangeKey headers).map
      (fun value => (beWord value,((lastValue deductionKey headers).map beWord).getD 0)) = some (announced headers) := by
    rw [announced,found]
    rfl
  rw [parse_encode headers word,meant]
  constructor
  · rintro ⟨whole,-⟩
    by_contra long
    rw [if_neg fun all => long fun h member _ => all h member] at whole
    cases whole
  · intro others
    have all : ∀ h ∈ headers, h.value.length ≤ 32 := by
      intro h member
      cases used : h.settles with
      | true => exact short h member (of_decide_eq_true used)
      | false => exact others h member used
    rw [if_pos all]
    refine ⟨rfl,?_⟩
    have fewer : (encodeHeaders (headers.filter Header.settles)).length ≤ (encodeHeaders headers).length :=
      (List.Sublist.flatMap List.filter_sublist _).length_le
    rw [parse_encode _ (fewer.trans_lt word),if_pos fun h member => all h (List.mem_filter.mp member).1,
      lastValue_settles (.inl rfl),lastValue_settles (.inr rfl),meant]

/-- A rate, a deduction, and a trace identifier of 33 bytes. -/
def traced : List Header :=
  [⟨exchangeKey,[1,134,160]⟩,⟨deductionKey,[]⟩,⟨ascii "trace",List.replicate 33 7⟩]

theorem trace_refused : (∃ h ∈ traced, h.key = exchangeKey) ∧
    (∀ h ∈ traced, h.key = exchangeKey ∨ h.key = deductionKey → h.value.length ≤ 32) ∧
    announced traced = (100000,0) ∧ parseSettlementHeaders (encodeHeaders traced) = none := by decide +kernel

/-- The same without the last header. -/
theorem headers_meant_plain : parseSettlementHeaders (encodeHeaders (traced.take 2)) = some (100000,0) := by
  have meant := headers_meant (traced.take 2) (by decide +kernel) ⟨⟨exchangeKey,[1,134,160]⟩,List.mem_cons_self,rfl⟩ (by decide +kernel)
  exact (meant.mpr (by decide +kernel)).1.trans (by decide +kernel)

end Directswarm.Headers
