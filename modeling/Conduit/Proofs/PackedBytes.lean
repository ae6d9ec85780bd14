import Conduit.Archive.Gzip
import Conduit.Proofs.Outcomes

/-! What is packed without compression is unpacked again: as stored blocks, and with the frame around them. -/
namespace Conduit

/-! Numbers as bytes. -/

theorem Crc32.littleEndianRead (width n : Nat) : ofLittleEndian (littleEndian width n) = n % 256 ^ width := by
  induction width generalizing n with
  | zero => simp [littleEndian, ofLittleEndian, Nat.mod_one]
  | succ width ih =>
    have head : littleEndian (width + 1) n = UInt8.ofNat (n % 256) :: littleEndian width (n / 256) := by
      simp only [littleEndian, List.range_succ_eq_map, List.map_cons, List.map_map, Nat.pow_zero, Nat.div_one]
      congr 1
      refine List.map_congr_left fun i _ => ?_
      change UInt8.ofNat (n / 256 ^ (i + 1) % 256) = _
      rw [Nat.pow_succ', Nat.div_div_eq_div_mul]
    rw [head, ofLittleEndian, ih, Nat.pow_succ', Nat.mod_mul]
    simp

theorem Crc32.littleEndianLength (width n : Nat) : (littleEndian width n).length = width := by
  simp [littleEndian]

namespace Deflate

/-! Stored blocks. -/

theorem sizeAppend (out : Output) (bytes : Bytes) : (out ++ bytes).size = out.size + bytes.length := by
  rw [← Array.length_toList, Array.toList_appendList, List.length_append, Array.length_toList]

theorem appendTwice (out : Output) (a b : Bytes) : out ++ a ++ b = out ++ (a ++ b) :=
  Array.ext' (by simp only [Array.toList_appendList, List.append_assoc])

theorem complement (b : UInt8) : b ^^^ (b ^^^ 0xFF) = 0xFF := by
  rw [← UInt8.xor_assoc, UInt8.xor_self, UInt8.zero_xor]

theorem storedBytes {limit : Nat} {out : Output} {bytes : Bytes} (short : bytes.length ≤ storedSize)
    (fits : out.size + bytes.length ≤ limit) (begun : List Bool) (rest : Bytes) :
    stored limit out ⟨begun, (storedBlock true bytes).tail ++ rest⟩ = .ok (out ++ bytes, ⟨[], rest⟩) := by
  have low : (UInt8.ofNat (bytes.length % 256)).toNat = bytes.length % 256 := by simp
  have high : (UInt8.ofNat (bytes.length / 256)).toNat = bytes.length / 256 := by
    simp only [storedSize] at short
    simp only [UInt8.toNat_ofNat']
    omega
  have count : bytes.length % 256 + 256 * (bytes.length / 256) = bytes.length := Nat.mod_add_div ..
  have within : ¬ limit < out.size + min bytes.length (bytes ++ rest).length := by
    rw [List.length_append]
    omega
  have header : BitSource.take ⟨begun, (storedBlock true bytes).tail ++ rest⟩ 4
      = .ok ([UInt8.ofNat (bytes.length % 256), UInt8.ofNat (bytes.length / 256),
          UInt8.ofNat (bytes.length % 256) ^^^ 0xFF, UInt8.ofNat (bytes.length / 256) ^^^ 0xFF],
          ⟨[], bytes ++ rest⟩) := rfl
  have all : BitSource.take ⟨[], bytes ++ rest⟩ bytes.length = .ok (bytes, ⟨[], rest⟩) := by
    simp [BitSource.take]
  simp only [stored, header, complement, low, high, count, within, all, bind, Except.bind, pure, Except.pure,
    ne_eq, not_true_eq_false, Bool.or_self, decide_false, if_false, Bool.false_eq_true]

theorem storedRead {limit : Nat} {out : Output} {bytes : Bytes} (short : bytes.length ≤ storedSize)
    (fits : out.size + bytes.length ≤ limit) (last : Bool) (fuel : Nat) (rest : Bytes) :
    blocks limit (fuel + 1) out ⟨[], storedBlock last bytes ++ rest⟩ =
      if last then .ok (out ++ bytes, ⟨[], rest⟩) else blocks limit fuel (out ++ bytes) ⟨[], rest⟩ := by
  have read := storedBytes short fits (List.replicate 5 false) rest
  have within : ¬ limit < (out ++ bytes).size := by
    rw [sizeAppend]
    omega
  have first : BitSource.bit ⟨[], storedBlock last bytes ++ rest⟩
      = .ok (last, ⟨List.replicate 7 false, (storedBlock true bytes).tail ++ rest⟩) := by cases last <;> rfl
  have kind : BitSource.natural ⟨List.replicate 7 false, (storedBlock true bytes).tail ++ rest⟩ 2
      = .ok (0, ⟨List.replicate 5 false, (storedBlock true bytes).tail ++ rest⟩) := rfl
  simp only [blocks, block, first, kind, read, within, bind, Except.bind, if_false]
  rfl

theorem storeRead {limit : Nat} (bytes : Bytes) {out : Output} (fits : out.size + bytes.length ≤ limit)
    {fuel : Nat} (enough : bytes.length < fuel) (rest : Bytes) :
    blocks limit fuel out ⟨[], store bytes ++ rest⟩ = .ok (out ++ bytes, ⟨[], rest⟩) := by
  obtain ⟨fuel, rfl⟩ : ∃ n, fuel = n + 1 := ⟨fuel - 1, by omega⟩
  fun_induction store bytes generalizing out fuel with
  | case1 bytes short =>
    rw [storedRead short fits]
    rfl
  | case2 bytes long ih =>
    have size : (bytes.take storedSize).length = storedSize := by
      rw [List.length_take]
      omega
    have left : (bytes.drop storedSize).length + storedSize = bytes.length := by
      rw [List.length_drop]
      omega
    have positive : 0 < storedSize := by decide
    obtain ⟨fuel, rfl⟩ : ∃ n, fuel = n + 1 := ⟨fuel - 1, by omega⟩
    rw [List.append_assoc, storedRead (by omega) (by omega), if_neg Bool.false_ne_true,
      ih (by rw [sizeAppend]; omega) fuel (by omega)]
    rw [appendTwice, List.take_append_drop]

theorem storeLength (bytes : Bytes) : bytes.length ≤ (store bytes).length := by
  fun_induction store bytes with
  | case1 bytes short => simp only [storedBlock, List.length_cons]; omega
  | case2 bytes long ih =>
    simp only [storedBlock, List.length_append, List.length_cons, List.length_take, List.length_drop] at ih ⊢
    omega

theorem inflateStore {limit : Nat} {bytes : Bytes} (fits : bytes.length ≤ limit) (rest : Bytes) :
    inflate limit (store bytes ++ rest) = .ok (bytes, rest) := by
  have size := storeLength bytes
  have enough : bytes.length < BitSource.left ⟨[], store bytes ++ rest⟩ + 1 := by
    simp only [BitSource.left, List.length_append]
    omega
  have read : blocks limit (BitSource.left ⟨[], store bytes ++ rest⟩ + 1) #[] ⟨[], store bytes ++ rest⟩
      = .ok (#[] ++ bytes, ⟨[], rest⟩) :=
    storeRead bytes (by simpa using fits) enough rest
  simp only [inflate, read, bind, Except.bind, pure, Except.pure, Array.toList_appendList, List.nil_append]

end Deflate

namespace Gzip

theorem packIsPacked (bytes : Bytes) : isPacked (pack bytes) := rfl

theorem unpackPack {limit : Nat} {bytes : Bytes} (fits : bytes.length ≤ limit) :
    unpack limit (pack bytes) = .ok bytes := by
  have whole : pack bytes = header ++ (Deflate.store bytes ++ (Crc32.littleEndian 4 (Crc32.checksum bytes).toNat
      ++ Crc32.littleEndian 4 bytes.length)) := by
    simp only [pack, List.append_assoc]
  have body : skipHeader (pack bytes) = .ok (Deflate.store bytes ++ (Crc32.littleEndian 4 (Crc32.checksum bytes).toNat
      ++ Crc32.littleEndian 4 bytes.length)) := by
    rw [whole]
    rfl
  have check := Crc32.littleEndianRead 4 (Crc32.checksum bytes).toNat
  have size := Crc32.littleEndianRead 4 bytes.length
  have power : 256 ^ 4 = 2 ^ 32 := by decide
  rw [power] at check size
  rw [Nat.mod_eq_of_lt (UInt32.toNat_lt _)] at check
  have long : ¬ (Crc32.littleEndian 4 (Crc32.checksum bytes).toNat ++ Crc32.littleEndian 4 bytes.length).length < 8 := by
    simp [Crc32.littleEndianLength]
  have first : (Crc32.littleEndian 4 (Crc32.checksum bytes).toNat ++ Crc32.littleEndian 4 bytes.length).take 4
      = Crc32.littleEndian 4 (Crc32.checksum bytes).toNat :=
    List.take_left' (Crc32.littleEndianLength ..)
  have second : ((Crc32.littleEndian 4 (Crc32.checksum bytes).toNat ++ Crc32.littleEndian 4 bytes.length).drop 4).take 4
      = Crc32.littleEndian 4 bytes.length := by
    rw [List.drop_left' (Crc32.littleEndianLength ..), List.take_of_length_le (Nat.le_of_eq (Crc32.littleEndianLength ..))]
  simp only [unpack, body, Deflate.inflateStore fits, Outcome.mapErrorPassed, skip, if_neg long, first, second, check, size, bind,
    Except.bind, pure, Except.pure, ne_eq, not_true_eq_false, if_false]

end Gzip

end Conduit
