import Vannak.Foundation.Bytes
import Vannak.Foundation.OrderedMap

/-!
# Self-delimiting decoders

A decoder is a cursor over the unread bytes that can fail. `Exact` says that it
accepts precisely the encodings of the values that fit their length fields, which
is the round trip and the uniqueness of the encoding in one equivalence. A format
that accepts several spellings of a value is only `Faithful`: a value that fits is
read back from its encoding, and every value the decoder can return fits.
-/

namespace Vannak.Foundation

set_option autoImplicit false

abbrev Decoder (ε : Type) := StateT Bytes (Except ε)

namespace Decoder

variable {ε α β : Type}

/-! ## Primitive readers -/

def take (eof : ε) (count : Nat) : Decoder ε Bytes := fun input =>
  if count ≤ input.length then .ok (input.take count, input.drop count) else .error eof

def u8 (eof : ε) : Decoder ε UInt8
  | [] => .error eof
  | byte :: rest => .ok (byte, rest)

def u32 (eof : ε) : Decoder ε UInt32 := u32OfBytes <$> take eof 4

def u64 (eof : ε) : Decoder ε UInt64 := u64OfBytes <$> take eof 8

def fromUtf8 (invalid : ε) (bytes : Bytes) : Decoder ε String :=
  match utf8Decode bytes with
  | some text => pure text
  | none => throw invalid

def string (eof invalid : ε) : Decoder ε String := do
  let length ← u32 eof
  let bytes ← take eof length.toNat
  fromUtf8 invalid bytes

/-- Reads as many bytes as the marker has and fails if they differ from it. -/
def expect (eof mismatch : ε) (marker : Bytes) : Decoder ε Unit := do
  let bytes ← take eof marker.length
  if bytes = marker then pure () else throw mismatch

/-- A tag byte, then the value if the tag is one. -/
def option (eof : ε) (invalid : UInt8 → ε) (item : Decoder ε α) : Decoder ε (Option α) := do
  match ← u8 eof with
  | 0 => pure none
  | 1 => some <$> item
  | tag => throw (invalid tag)

def times (item : Decoder ε α) : Nat → Decoder ε (List α)
  | 0 => pure []
  | count + 1 => do
    let head ← item
    let tail ← times item count
    pure (head :: tail)

/-- A four-byte count, then as many items. -/
def counted (eof : ε) (item : Decoder ε α) : Decoder ε (List α) := do
  let count ← u32 eof
  times item count.toNat

/-- A counted list of bindings, inserted one after another. -/
def entries [Ord α] [Std.TransOrd α] (eof : ε) (item : Decoder ε (α × β)) :
    Decoder ε (Std.ExtTreeMap α β) :=
  (∅ : Std.ExtTreeMap α β).insertMany <$> counted eof item

/-- Fails with the number of bytes left unless there are none. -/
def finish (trailing : Nat → ε) : Decoder ε Unit := fun unread =>
  if unread = [] then .ok ((), []) else .error (trailing unread.length)

/-! ## Encoders

Lengths and counts are the truncated casts of the writer, exact below `2 ^ 32`. -/

def stringBytes (text : String) : Bytes :=
  u32Bytes (UInt32.ofNat (utf8Bytes text).length) ++ utf8Bytes text

def optionBytes (encode : α → Bytes) : Option α → Bytes
  | none => [0]
  | some value => 1 :: encode value

def countedBytes (encode : α → Bytes) (values : List α) : Bytes :=
  u32Bytes (UInt32.ofNat values.length) ++ values.flatMap encode

def entriesBytes [Ord α] [Std.TransOrd α] (encode : α × β → Bytes) (map : Std.ExtTreeMap α β) : Bytes :=
  countedBytes encode map.toList

def StringFits (text : String) : Prop := (utf8Bytes text).length < 2 ^ 32

def OptionFits (fits : α → Prop) (value : Option α) : Prop := ∀ inner, value = some inner → fits inner

def CountedFits (fits : α → Prop) (values : List α) : Prop :=
  values.length < 2 ^ 32 ∧ ∀ value ∈ values, fits value

theorem toNat_cast {n : Nat} (h : n < 2 ^ 32) : (UInt32.ofNat n).toNat = n :=
  UInt32.toNat_ofNat_of_lt' h

/-! ## The properties -/

/-- The decoder takes exactly `bytes` off any longer input and returns `value`. -/
def Reads (decoder : Decoder ε α) (bytes : Bytes) (value : α) : Prop :=
  ∀ rest, decoder.run (bytes ++ rest) = .ok (value, rest)

structure Faithful (decoder : Decoder ε α) (encode : α → Bytes) (fits : α → Prop) : Prop where
  reads : ∀ {value : α}, fits value → Reads decoder (encode value) value
  yields : ∀ {input : Bytes} {value : α} {rest : Bytes},
    decoder.run input = .ok (value, rest) → fits value

structure Exact (decoder : Decoder ε α) (encode : α → Bytes) (fits : α → Prop) : Prop
    extends Faithful decoder encode fits where
  canonical : ∀ {input : Bytes} {value : α} {rest : Bytes},
    decoder.run input = .ok (value, rest) → input = encode value ++ rest

section Properties

variable {decoder : Decoder ε α} {encode : α → Bytes} {fits : α → Prop}

theorem Exact.run_iff (h : Exact decoder encode fits) {input rest : Bytes} {value : α} :
    decoder.run input = .ok (value, rest) ↔ input = encode value ++ rest ∧ fits value := by
  constructor
  · intro hRun
    exact ⟨h.canonical hRun, h.yields hRun⟩
  · rintro ⟨rfl, hFits⟩
    exact h.reads hFits rest

theorem Exact.of_run_iff (h : ∀ {input : Bytes} {value : α} {rest : Bytes},
    decoder.run input = .ok (value, rest) ↔ input = encode value ++ rest ∧ fits value) :
    Exact decoder encode fits where
  reads hFits _ := h.mpr ⟨rfl, hFits⟩
  yields hRun := (h.mp hRun).2
  canonical hRun := (h.mp hRun).1

end Properties

/-! ## Sequencing -/

theorem run_bind_eq_ok {decoder : Decoder ε α} {next : α → Decoder ε β} {input rest : Bytes}
    {result : β} : (decoder >>= next).run input = .ok (result, rest) ↔
      ∃ value middle, decoder.run input = .ok (value, middle) ∧
        (next value).run middle = .ok (result, rest) := by
  rw [StateT.run_bind]
  cases h : decoder.run input with
  | error reason => simp [bind, Except.bind]
  | ok pair =>
    obtain ⟨value, middle⟩ := pair
    simp [bind, Except.bind]

theorem run_map_eq_ok {decoder : Decoder ε α} {f : α → β} {input rest : Bytes} {result : β} :
    (f <$> decoder).run input = .ok (result, rest) ↔
      ∃ value, decoder.run input = .ok (value, rest) ∧ f value = result := by
  rw [StateT.run_map]
  cases h : decoder.run input with
  | error reason => simp [Functor.map, Except.map]
  | ok pair =>
    obtain ⟨value, middle⟩ := pair
    simp only [Functor.map, Except.map, Except.ok.injEq, Prod.mk.injEq]
    constructor
    · rintro ⟨rfl, rfl⟩
      exact ⟨value, ⟨rfl, rfl⟩, rfl⟩
    · rintro ⟨other, ⟨rfl, rfl⟩, rfl⟩
      exact ⟨rfl, rfl⟩

theorem run_pure_eq_ok {input rest : Bytes} {value result : α} :
    (pure value : Decoder ε α).run input = .ok (result, rest) ↔ value = result ∧ input = rest := by
  rw [StateT.run_pure]
  simp [pure, Except.pure]

theorem run'_eq_ok {decoder : Decoder ε α} {input : Bytes} {value : α} :
    decoder.run' input = .ok value ↔ ∃ rest, decoder.run input = .ok (value, rest) := by
  rw [StateT.run']
  change Except.map Prod.fst (decoder.run input) = .ok value ↔ _
  cases decoder.run input with
  | error reason => simp [Except.map]
  | ok pair =>
    obtain ⟨found, rest⟩ := pair
    simp [Except.map]

theorem Reads.pure (value : α) : Reads (pure value : Decoder ε α) [] value := fun _ => rfl

theorem Reads.bind {decoder : Decoder ε α} {next : α → Decoder ε β} {first second : Bytes}
    {value : α} {result : β} (hFirst : Reads decoder first value)
    (hSecond : Reads (next value) second result) :
    Reads (decoder >>= next) (first ++ second) result := by
  intro rest
  rw [List.append_assoc]
  exact run_bind_eq_ok.mpr ⟨value, second ++ rest, hFirst _, hSecond rest⟩

theorem Reads.bind_pure {decoder : Decoder ε α} {bytes : Bytes} {value : α} (f : α → β)
    (h : Reads decoder bytes value) :
    Reads (decoder >>= fun value => Pure.pure (f value)) bytes (f value) := by
  intro rest
  exact run_bind_eq_ok.mpr ⟨value, rest, h rest, rfl⟩

theorem Reads.map {decoder : Decoder ε α} {bytes : Bytes} {value : α} (f : α → β)
    (h : Reads decoder bytes value) : Reads (f <$> decoder) bytes (f value) := by
  intro rest
  exact run_map_eq_ok.mpr ⟨value, h rest, rfl⟩

/-! ## Rules for the primitive readers -/

theorem run_take_eq_ok {eof : ε} {count : Nat} {input bytes rest : Bytes} :
    (take eof count).run input = .ok (bytes, rest) ↔ input = bytes ++ rest ∧ bytes.length = count := by
  simp only [take, StateT.run]
  split
  · rename_i hCount
    simp only [Except.ok.injEq, Prod.mk.injEq]
    constructor
    · rintro ⟨rfl, rfl⟩
      exact ⟨(List.take_append_drop count input).symm, by simpa using hCount⟩
    · rintro ⟨rfl, rfl⟩
      exact ⟨List.take_left, List.drop_left⟩
  · rename_i hCount
    constructor
    · intro h
      cases h
    · rintro ⟨rfl, rfl⟩
      exact absurd (by simp) hCount

theorem exact_take (eof : ε) (count : Nat) : Exact (take eof count) id fun bytes => bytes.length = count :=
  .of_run_iff run_take_eq_ok

theorem exact_u8 (eof : ε) : Exact (u8 eof) (fun byte => [byte]) fun _ => True := by
  refine .of_run_iff @fun input byte rest => ?_
  cases input with
  | nil => simp [u8, StateT.run]
  | cons head tail => simp [u8, StateT.run]

theorem exact_u32 (eof : ε) : Exact (u32 eof) u32Bytes fun _ => True := by
  refine .of_run_iff @fun input value rest => ?_
  rw [u32, run_map_eq_ok]
  constructor
  · rintro ⟨bytes, hBytes, rfl⟩
    obtain ⟨rfl, hLength⟩ := run_take_eq_ok.mp hBytes
    exact ⟨by rw [u32Bytes_u32OfBytes hLength], trivial⟩
  · rintro ⟨rfl, -⟩
    exact ⟨u32Bytes value, run_take_eq_ok.mpr ⟨rfl, length_u32Bytes value⟩, u32OfBytes_u32Bytes value⟩

theorem exact_u64 (eof : ε) : Exact (u64 eof) u64Bytes fun _ => True := by
  refine .of_run_iff @fun input value rest => ?_
  rw [u64, run_map_eq_ok]
  constructor
  · rintro ⟨bytes, hBytes, rfl⟩
    obtain ⟨rfl, hLength⟩ := run_take_eq_ok.mp hBytes
    exact ⟨by rw [u64Bytes_u64OfBytes hLength], trivial⟩
  · rintro ⟨rfl, -⟩
    exact ⟨u64Bytes value, run_take_eq_ok.mpr ⟨rfl, length_u64Bytes value⟩, u64OfBytes_u64Bytes value⟩

theorem exact_expect (eof mismatch : ε) (marker : Bytes) :
    Exact (expect eof mismatch marker) (fun _ => marker) fun _ => True := by
  refine .of_run_iff @fun input value rest => ?_
  rw [expect, run_bind_eq_ok]
  constructor
  · rintro ⟨bytes, middle, hBytes, h⟩
    split at h
    · rename_i hMarker
      obtain ⟨-, rfl⟩ := run_pure_eq_ok.mp h
      exact ⟨by rw [(run_take_eq_ok.mp hBytes).1, hMarker], trivial⟩
    · cases h
  · rintro ⟨rfl, -⟩
    refine ⟨marker, rest, run_take_eq_ok.mpr ⟨rfl, rfl⟩, ?_⟩
    rw [if_pos rfl]
    exact run_pure_eq_ok.mpr ⟨rfl, rfl⟩

theorem exact_string (eof invalid : ε) : Exact (string eof invalid) stringBytes StringFits := by
  refine .of_run_iff @fun input text rest => ?_
  constructor
  · intro h
    obtain ⟨length, middle, hLength, h⟩ := run_bind_eq_ok.mp h
    obtain ⟨bytes, tail, hBytes, h⟩ := run_bind_eq_ok.mp h
    have hInput := (exact_u32 eof).canonical hLength
    obtain ⟨hMiddle, hCount⟩ := run_take_eq_ok.mp hBytes
    rw [fromUtf8] at h
    split at h
    · rename_i decoded hDecoded
      obtain ⟨rfl, rfl⟩ := run_pure_eq_ok.mp h
      have hText := utf8Bytes_of_utf8Decode hDecoded
      refine ⟨?_, ?_⟩
      · rw [hInput, hMiddle, stringBytes, hText, hCount, UInt32.ofNat_toNat, List.append_assoc]
      · rw [StringFits, hText, hCount]
        exact length.toNat_lt
    · cases h
  · rintro ⟨rfl, hFits⟩
    rw [stringBytes, List.append_assoc]
    have hLength : Reads (u32 eof) (u32Bytes (UInt32.ofNat (utf8Bytes text).length)) _ :=
      (exact_u32 eof).reads trivial
    have hBytes := (exact_take eof _).reads (toNat_cast hFits).symm
    refine run_bind_eq_ok.mpr ⟨_, _, hLength _, run_bind_eq_ok.mpr ⟨_, _, hBytes rest, ?_⟩⟩
    rw [fromUtf8, utf8Decode_utf8Bytes]
    exact run_pure_eq_ok.mpr ⟨rfl, rfl⟩

theorem run_finish_eq_ok {trailing : Nat → ε} {input rest : Bytes} {value : Unit} :
    (finish trailing).run input = .ok (value, rest) ↔ input = [] ∧ rest = [] := by
  simp only [finish, StateT.run]
  split
  · rename_i hNil
    simp [hNil, eq_comm]
  · rename_i hSome
    simp [hSome]

/-! ## Options and counted lists -/

section Combinators

variable {item : Decoder ε α} {encode : α → Bytes} {fits : α → Prop}

/-- A decoder of one type read as a decoder of another that has the same values. -/
theorem Exact.map (h : Exact item encode fits) {f : α → β} {g : β → α} (hLeft : ∀ a, g (f a) = a)
    (hRight : ∀ b, f (g b) = b) :
    Exact (f <$> item) (fun b => encode (g b)) fun b => fits (g b) := by
  refine .of_run_iff @fun input value rest => ?_
  rw [run_map_eq_ok]
  constructor
  · rintro ⟨inner, hInner, rfl⟩
    rw [hLeft]
    exact h.run_iff.mp hInner
  · intro hValue
    exact ⟨g value, h.run_iff.mpr hValue, hRight value⟩

theorem Exact.run_bind (h : Exact item encode fits) {next : α → Decoder ε β} {input rest : Bytes}
    {result : β} : (item >>= next).run input = .ok (result, rest) ↔
      ∃ value middle, input = encode value ++ middle ∧ fits value ∧
        (next value).run middle = .ok (result, rest) := by
  simp only [run_bind_eq_ok, h.run_iff, and_assoc]

/-- A tag byte that decides how to go on. -/
theorem exact_tagged (eof : ε) {body : UInt8 → Decoder ε α} (hEncode : ∀ value, encode value ≠ [])
    (h : ∀ (tag : UInt8) (input : Bytes) (value : α) (rest : Bytes),
      (body tag).run input = .ok (value, rest) ↔ tag :: input = encode value ++ rest ∧ fits value) :
    Exact (u8 eof >>= body) encode fits := by
  refine .of_run_iff @fun input value rest => ?_
  rw [run_bind_eq_ok]
  constructor
  · rintro ⟨tag, middle, hTag, hValue⟩
    obtain rfl := (exact_u8 eof).canonical hTag
    exact (h tag middle value rest).mp hValue
  · rintro ⟨hInput, hFits⟩
    cases input with
    | nil => exact absurd (List.append_eq_nil_iff.mp hInput.symm).1 (hEncode value)
    | cons tag middle => exact ⟨tag, middle, rfl, (h tag middle value rest).mpr ⟨hInput, hFits⟩⟩

theorem faithful_tagged (eof : ε) {body : UInt8 → Decoder ε α}
    (hReads : ∀ value, fits value → ∃ tag bytes, encode value = tag :: bytes ∧ Reads (body tag) bytes value)
    (hYields : ∀ (tag : UInt8) {input : Bytes} {value : α} {rest : Bytes},
      (body tag).run input = .ok (value, rest) → fits value) :
    Faithful (u8 eof >>= body) encode fits where
  reads {value} hFits rest := by
    obtain ⟨tag, bytes, hEncode, hBody⟩ := hReads value hFits
    rw [hEncode]
    exact run_bind_eq_ok.mpr ⟨tag, bytes ++ rest, rfl, hBody rest⟩
  yields hRun := by
    obtain ⟨tag, middle, -, hBody⟩ := run_bind_eq_ok.mp hRun
    exact hYields tag hBody

theorem exact_option (eof : ε) (invalid : UInt8 → ε) (h : Exact item encode fits) :
    Exact (option eof invalid item) (optionBytes encode) (OptionFits fits) := by
  refine exact_tagged eof (fun value => by cases value <;> simp [optionBytes]) ?_
  intro tag input value rest
  constructor
  · intro hValue
    split at hValue
    · obtain ⟨rfl, rfl⟩ := run_pure_eq_ok.mp hValue
      exact ⟨rfl, fun _ hNone => by cases hNone⟩
    · obtain ⟨inner, hInner, rfl⟩ := run_map_eq_ok.mp hValue
      obtain ⟨rfl, hFits⟩ := h.run_iff.mp hInner
      exact ⟨rfl, fun _ hSome => Option.some.inj hSome ▸ hFits⟩
    · cases hValue
  · rintro ⟨hInput, hFits⟩
    cases value with
    | none =>
      obtain ⟨rfl, rfl⟩ := List.cons.inj hInput
      rfl
    | some inner =>
      obtain ⟨rfl, rfl⟩ := List.cons.inj hInput
      exact run_map_eq_ok.mpr ⟨inner, h.run_iff.mpr ⟨rfl, hFits inner rfl⟩, rfl⟩

theorem faithful_times (h : Faithful item encode fits) (count : Nat) :
    Faithful (times item count) (List.flatMap encode) fun values =>
      values.length = count ∧ ∀ value ∈ values, fits value := by
  induction count with
  | zero =>
    refine ⟨?_, ?_⟩
    · rintro values ⟨hLength, -⟩ rest
      obtain rfl := List.length_eq_zero_iff.mp hLength
      rfl
    · intro input values rest hRun
      obtain ⟨rfl, rfl⟩ := run_pure_eq_ok.mp hRun
      exact ⟨rfl, by simp⟩
  | succ count ih =>
    refine ⟨?_, ?_⟩
    · rintro values ⟨hLength, hFits⟩ rest
      cases values with
      | nil => cases hLength
      | cons head tail =>
        obtain ⟨hHead, hTail⟩ := List.forall_mem_cons.mp hFits
        rw [List.flatMap_cons, List.append_assoc]
        refine run_bind_eq_ok.mpr ⟨head, _, h.reads hHead _, ?_⟩
        refine run_bind_eq_ok.mpr ⟨tail, rest, ih.reads ⟨Nat.succ.inj hLength, hTail⟩ rest, ?_⟩
        exact run_pure_eq_ok.mpr ⟨rfl, rfl⟩
    · intro input values rest hRun
      obtain ⟨head, middle, hHead, hMore⟩ := run_bind_eq_ok.mp hRun
      obtain ⟨tail, last, hTail, hPure⟩ := run_bind_eq_ok.mp hMore
      obtain ⟨rfl, rfl⟩ := run_pure_eq_ok.mp hPure
      obtain ⟨hLength, hTailFits⟩ := ih.yields hTail
      exact ⟨by rw [List.length_cons, hLength], List.forall_mem_cons.mpr ⟨h.yields hHead, hTailFits⟩⟩

theorem exact_times (h : Exact item encode fits) (count : Nat) :
    Exact (times item count) (List.flatMap encode) fun values =>
      values.length = count ∧ ∀ value ∈ values, fits value := by
  refine ⟨faithful_times h.toFaithful count, ?_⟩
  induction count with
  | zero =>
    intro input values rest hRun
    obtain ⟨rfl, rfl⟩ := run_pure_eq_ok.mp hRun
    rfl
  | succ count ih =>
    intro input values rest hRun
    obtain ⟨head, middle, hHead, hMore⟩ := run_bind_eq_ok.mp hRun
    obtain ⟨tail, last, hTail, hPure⟩ := run_bind_eq_ok.mp hMore
    obtain ⟨rfl, rfl⟩ := run_pure_eq_ok.mp hPure
    rw [h.canonical hHead, ih hTail, List.flatMap_cons, List.append_assoc]

theorem faithful_counted (eof : ε) (h : Faithful item encode fits) :
    Faithful (counted eof item) (countedBytes encode) (CountedFits fits) where
  reads {values} hFits rest := by
    rw [countedBytes, List.append_assoc]
    refine (exact_u32 eof).run_bind.mpr ⟨_, _, rfl, trivial, ?_⟩
    exact (faithful_times h _).reads ⟨(toNat_cast hFits.1).symm, hFits.2⟩ rest
  yields hRun := by
    obtain ⟨count, middle, -, -, hValues⟩ := (exact_u32 eof).run_bind.mp hRun
    obtain ⟨hLength, hFits⟩ := (faithful_times h _).yields hValues
    exact ⟨hLength ▸ count.toNat_lt, hFits⟩

theorem exact_counted (eof : ε) (h : Exact item encode fits) :
    Exact (counted eof item) (countedBytes encode) (CountedFits fits) := by
  refine ⟨faithful_counted eof h.toFaithful, ?_⟩
  intro input values rest hRun
  obtain ⟨count, middle, rfl, -, hValues⟩ := (exact_u32 eof).run_bind.mp hRun
  have hLength := ((exact_times h _).yields hValues).1
  rw [(exact_times h _).canonical hValues, countedBytes, hLength, UInt32.ofNat_toNat, List.append_assoc]

end Combinators

/-- A map is read back from its own bindings, in whatever order and however often
the accepted input spelled them. -/
theorem faithful_entries [Ord α] [Std.TransOrd α] [Std.LawfulEqOrd α] (eof : ε)
    {item : Decoder ε (α × β)} {encode : α × β → Bytes} {fits : α × β → Prop}
    (h : Faithful item encode fits) :
    Faithful (entries eof item) (entriesBytes encode) fun map => CountedFits fits map.toList where
  reads {map} hFits rest :=
    run_map_eq_ok.mpr ⟨map.toList, (faithful_counted eof h).reads hFits rest, insertMany_toList map⟩
  yields hRun := by
    obtain ⟨pairs, hPairs, rfl⟩ := run_map_eq_ok.mp hRun
    obtain ⟨hLength, hFits⟩ := (faithful_counted eof h).yields hPairs
    refine ⟨?_, ?_⟩
    · rw [Std.ExtTreeMap.length_toList]
      have hSize := Std.ExtTreeMap.size_insertMany_list_le (t := (∅ : Std.ExtTreeMap α β)) (l := pairs)
      simp only [Std.ExtTreeMap.size_empty] at hSize
      omega
    · rintro ⟨key, value⟩ hMem
      rcases mem_of_getElem?_insertMany (Std.ExtTreeMap.mem_toList_iff_getElem?_eq_some.mp hMem)
        with hPair | hEmpty
      · exact hFits _ hPair
      · simp at hEmpty

/-! ## Encodings short enough for their length fields -/

theorem length_lt_of_append {first second : Bytes} {limit : Nat}
    (h : (first ++ second).length < limit) : first.length < limit ∧ second.length < limit := by
  rw [List.length_append] at h
  omega

theorem length_stringBytes (text : String) : (stringBytes text).length = 4 + (utf8Bytes text).length := by
  simp [stringBytes]

theorem stringFits_of_lt {text : String} (h : (stringBytes text).length < 2 ^ 32) : StringFits text := by
  rw [length_stringBytes] at h
  rw [StringFits]
  omega

theorem optionFits_of_lt {encode : α → Bytes} {fits : α → Prop} {value : Option α}
    (hItem : ∀ inner, (encode inner).length < 2 ^ 32 → fits inner)
    (h : (optionBytes encode value).length < 2 ^ 32) : OptionFits fits value := by
  rintro inner rfl
  rw [optionBytes, List.length_cons] at h
  exact hItem inner (by omega)

/-- Every item takes a byte at least, so the whole bounds the count too. -/
theorem countedFits_of_lt {encode : α → Bytes} {fits : α → Prop} {values : List α}
    (hPos : ∀ value, 0 < (encode value).length)
    (hItem : ∀ value, (encode value).length < 2 ^ 32 → fits value)
    (h : (countedBytes encode values).length < 2 ^ 32) : CountedFits fits values := by
  rw [countedBytes, List.length_append, length_u32Bytes] at h
  have hSum : values.length ≤ (values.flatMap encode).length := by
    rw [List.length_flatMap]
    simpa using List.length_le_sum_of_one_le (values.map fun value => (encode value).length)
      (List.forall_mem_map.mpr fun value _ => hPos value)
  refine ⟨by omega, fun value hValue => hItem value ?_⟩
  have hMem : (encode value).length ≤ (values.flatMap encode).length :=
    (List.sublist_flatten_of_mem (List.mem_map_of_mem hValue)).length_le
  omega

end Decoder

/-! ## Optional builder steps -/

/-- `if let Some(value) = value { base = build(base, value) }`. -/
def applyIfSome {α β : Type} (value : Option β) (build : α → β → α) (base : α) : α :=
  match value with
  | some value => build base value
  | none => base

/-- A builder step sets its field, when the field was unset before. -/
theorem applyIfSome_eq_set {α β : Type} (build : α → β → α) (get : α → Option β)
    (set : α → Option β → α) (hSet : ∀ base, set base (get base) = base)
    (hBuild : ∀ base value, build base value = set base (some value)) {base : α} (hNone : get base = none)
    (value : Option β) : applyIfSome value build base = set base value := by
  cases value with
  | none => exact (hNone ▸ hSet base).symm
  | some value => exact hBuild base value

end Vannak.Foundation
