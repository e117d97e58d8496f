import DepthaiCore.Lib.LittleEndian

/-!
# The preboot header

`createPrebootHeader` puts the board configuration in front of the firmware: commands that are the
same for every device, and one command with a payload. The command says in 16 bits how many words
follow it. These are another magic word, the checksum and the size of the payload, and the payload
itself, with zeros up to a whole number of words.

Nothing compares the number of words with what 16 bits hold.
-/

namespace DepthaiCore

namespace PrebootHeader

open LittleEndian

/-! ### What the source computes -/

def checksum (buffer : List UInt8) (prevChecksum : UInt32 := 5381) : UInt32 :=
  buffer.foldl (fun checksum byte => ((checksum <<< 5) + checksum) + byte.toUInt32) prevChecksum

/-- `HEADER`, up to the first magic word. -/
def HEADER : List UInt8 :=
  [77, 65, 50, 120,
    0x9A, 0xA8, 0x00, 0x32, 0x20, 0xAD, 0xDE, 0xD0, 0xF1,
    0x9A, 0x9C, 0x00, 0x32, 0x20, 0xFF, 0xFF, 0xFF, 0xFF,
    0x9A, 0xA8, 0x00, 0x32, 0x20, 0xAD, 0xDE, 0xD0, 0xF1,
    0x9A, 0xA4, 0x00, 0x32, 0x20, 0x01, 0x00, 0x00, 0x00,
    0x8A]

/-- The four bytes of a word: `(word >> (i * 8)) & 0xFF`. -/
def bytesOf (word : UInt32) : List UInt8 :=
  [0, 1, 2, 3].map fun i : UInt32 => ((word >>> (i * 8)) &&& 0xFF).toUInt8

/-- The bytes of the payload with the magic word, the checksum and the size. -/
def totalPayloadSize (payload : List UInt8) : ℕ := payload.length + 4 + 4 + 4

/-- The bytes that are missing to a whole number of words. -/
def toAddBytes (payload : List UInt8) : ℕ :=
  if totalPayloadSize payload % 4 ≠ 0 then 4 - totalPayloadSize payload % 4 else 0

/-- The words that follow the command. -/
def totalSizeWord (payload : List UInt8) : ℕ :=
  (totalPayloadSize payload + toAddBytes payload) / 4

def createPrebootHeader (payload : List UInt8) (magic1 magic2 : UInt32) : List UInt8 :=
  HEADER ++ bytesOf magic1 ++
    [UInt8.ofNat ((totalSizeWord payload >>> 0) &&& 0xFF),
      UInt8.ofNat ((totalSizeWord payload >>> 8) &&& 0xFF)] ++
    [magic2, checksum payload, UInt32.ofNat payload.length].flatMap bytesOf ++
    payload ++ List.replicate (toAddBytes payload) 0x00

/-! ### The fields -/

/-- What is read of the bytes. -/
structure Preboot where
  header : List UInt8
  magic1 : ℕ
  words : ℕ
  /-- The bytes that follow the number of words. -/
  following : ℕ
  magic2 : ℕ
  checksum : ℕ
  size : ℕ
  payload : List UInt8
  padding : List UInt8
  deriving DecidableEq, Repr

/-- The fields, one after the other. -/
def readPreboot (bytes : List UInt8) : Preboot :=
  let command := bytes.drop 41
  let counted := command.drop 4
  let following := counted.drop 2
  let rest := following.drop 12
  let size := decode ((following.drop 8).take 4)
  { header := bytes.take 41
    magic1 := decode (command.take 4)
    words := decode (counted.take 2)
    following := following.length
    magic2 := decode (following.take 4)
    checksum := decode ((following.drop 4).take 4)
    size
    payload := rest.take size
    padding := rest.drop size }

/-- **What is read is what was written**: the magic words, the payload and its checksum. The number
of words is that of the bytes which follow it, and less than a word is added. -/
structure ReadsBack (payload : List UInt8) (magic1 magic2 : UInt32) (read : Preboot) : Prop where
  header : read.header = HEADER
  magic1 : read.magic1 = magic1.toNat
  words : read.words * 4 = read.following
  magic2 : read.magic2 = magic2.toNat
  checksum : read.checksum = (PrebootHeader.checksum payload).toNat
  payload : read.payload = payload
  padding : read.padding.length < 4

/-! ### Reading back -/

variable {payload : List UInt8} {magic1 magic2 : UInt32}

theorem bytesOf_eq (word : UInt32) : bytesOf word = encode 4 word.toNat := map_shifts word

theorem decode_bytesOf (word : UInt32) : decode (bytesOf word) = word.toNat := by
  rw [bytesOf_eq, decode_encode]
  exact Nat.mod_eq_of_lt word.toNat_lt

theorem length_bytesOf (word : UInt32) : (bytesOf word).length = 4 := rfl

/-- The two bytes of the number of words spell it up to `2 ^ 16`. -/
theorem decode_words (n : ℕ) :
    decode [UInt8.ofNat ((n >>> 0) &&& 0xFF), UInt8.ofNat ((n >>> 8) &&& 0xFF)] = n % 65536 := by
  have hmask (m : ℕ) : m &&& 0xFF = m % 256 := Nat.and_two_pow_sub_one_eq_mod m 8
  rw [hmask, hmask, decode_cons, decode_cons, decode_nil, UInt8.toNat_ofNat', UInt8.toNat_ofNat',
    Nat.shiftRight_zero, Nat.shiftRight_eq_div_pow]
  omega

theorem toAddBytes_lt (payload : List UInt8) : toAddBytes payload < 4 := by
  rw [toAddBytes]
  split_ifs <;> omega

theorem totalSizeWord_mul (payload : List UInt8) :
    totalSizeWord payload * 4 = totalPayloadSize payload + toAddBytes payload := by
  rw [totalSizeWord, toAddBytes]
  split_ifs <;> omega

theorem totalSizeWord_lt_iff (payload : List UInt8) :
    totalSizeWord payload < 65536 ↔ payload.length ≤ 262128 := by
  have hwords := totalSizeWord_mul payload
  have hadd := toAddBytes_lt payload
  rw [totalPayloadSize] at hwords
  omega

theorem take_drop_append {n : ℕ} {field : List UInt8} (h : field.length = n) (rest : List UInt8) :
    (field ++ rest).take n = field ∧ (field ++ rest).drop n = rest :=
  ⟨List.take_left' h, List.drop_left' h⟩

theorem createPrebootHeader_eq (payload : List UInt8) (magic1 magic2 : UInt32) :
    createPrebootHeader payload magic1 magic2 =
      HEADER ++ (bytesOf magic1 ++
        ([UInt8.ofNat ((totalSizeWord payload >>> 0) &&& 0xFF),
          UInt8.ofNat ((totalSizeWord payload >>> 8) &&& 0xFF)] ++
        (bytesOf magic2 ++ (bytesOf (checksum payload) ++ (bytesOf (UInt32.ofNat payload.length) ++
          (payload ++ List.replicate (toAddBytes payload) 0x00)))))) := by
  simp only [createPrebootHeader, List.flatMap_cons, List.flatMap_nil, List.append_nil,
    List.append_assoc]

theorem readPreboot_create (hsize : payload.length < 2 ^ 32) :
    readPreboot (createPrebootHeader payload magic1 magic2) =
      { header := HEADER
        magic1 := magic1.toNat
        words := totalSizeWord payload % 65536
        following := totalSizeWord payload * 4
        magic2 := magic2.toNat
        checksum := (checksum payload).toNat
        size := payload.length
        payload
        padding := List.replicate (toAddBytes payload) 0x00 } := by
  have hheader := take_drop_append (show HEADER.length = 41 from rfl)
  have hword (word : UInt32) := take_drop_append (length_bytesOf word)
  have hwords := take_drop_append (show [UInt8.ofNat ((totalSizeWord payload >>> 0) &&& 0xFF),
    UInt8.ofNat ((totalSizeWord payload >>> 8) &&& 0xFF)].length = 2 from rfl)
  have hpayload := take_drop_append (show payload.length = payload.length from rfl)
  have hfields (following : List UInt8) :
      following.drop 8 = (following.drop 4).drop 4 ∧
        following.drop 12 = ((following.drop 4).drop 4).drop 4 := by
    rw [List.drop_drop, List.drop_drop]
    exact ⟨rfl, rfl⟩
  have hlength : (UInt32.ofNat payload.length).toNat = payload.length :=
    UInt32.toNat_ofNat_of_lt' hsize
  have htotal := totalSizeWord_mul payload
  rw [totalPayloadSize] at htotal
  simp only [readPreboot, createPrebootHeader_eq, hheader, hword, hwords, hpayload, hfields,
    decode_bytesOf, decode_words, hlength]
  rw [htotal]
  simp only [List.length_append, List.length_replicate, length_bytesOf]
  congr 1
  omega

/-- **Payloads of up to 262128 bytes are read back.** For a longer one the number of words does not
fit into its 16 bits. -/
theorem readsBack_iff (hsize : payload.length < 2 ^ 32) :
    ReadsBack payload magic1 magic2 (readPreboot (createPrebootHeader payload magic1 magic2)) ↔
      payload.length ≤ 262128 := by
  rw [readPreboot_create hsize, ← totalSizeWord_lt_iff]
  constructor
  · intro h
    have hwords := h.words
    simp only at hwords
    omega
  · intro h
    refine ⟨rfl, rfl, ?_, rfl, rfl, rfl, ?_⟩
    · simp only
      rw [Nat.mod_eq_of_lt h]
    · simp only
      rw [List.length_replicate]
      exact toAddBytes_lt payload

/-- A configuration of five bytes. -/
theorem readsBack_iff_five :
    ReadsBack [123, 34, 97, 34, 125] 0x78010000 0x21ea17e6
      (readPreboot (createPrebootHeader [123, 34, 97, 34, 125] 0x78010000 0x21ea17e6)) ↔
      [123, 34, 97, 34, (125 : UInt8)].length ≤ 262128 :=
  readsBack_iff (by decide)

/-- **The number of words is zero** for 262129 bytes. -/
theorem not_readsBack : ¬∀ payload : List UInt8, payload.length < 2 ^ 32 →
    ReadsBack payload 0x78010000 0x21ea17e6
      (readPreboot (createPrebootHeader payload 0x78010000 0x21ea17e6)) := by
  intro h
  -- only the length of the bytes matters, and the bytes stay abstract
  obtain ⟨payload, hlength⟩ : ∃ payload : List UInt8, payload.length = 262129 :=
    ⟨List.replicate 262129 0, List.length_replicate⟩
  have hsize : payload.length < 2 ^ 32 := by
    rw [hlength]
    decide
  have hwords := (h payload hsize).words
  rw [readPreboot_create hsize] at hwords
  have htotal := totalSizeWord_mul payload
  have hadd := toAddBytes_lt payload
  rw [totalPayloadSize, hlength] at htotal
  simp only at hwords
  omega

end PrebootHeader

end DepthaiCore
