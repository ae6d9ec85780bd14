import Conduit.Archive.Tar
import Conduit.Proofs.TextBytes

/-! Archives are read as they were written. -/
namespace Conduit.Tar

/-! Fields. -/

theorem sliceMiddle {before field after : Bytes} {start count : Nat} (here : before.length = start)
    (size : field.length = count) : slice (before ++ (field ++ after)) start count = field := by
  rw [slice, List.drop_left' here, List.take_left' size]

theorem octalLength (width n : Nat) : (octal width n).length = width := by
  induction width generalizing n with
  | zero => rfl
  | succ width ih => rw [octal, List.length_append, ih, List.length_singleton]

theorem binaryLength (width n : Nat) : (binary width n).length = width := by
  induction width generalizing n with
  | zero => rfl
  | succ width ih => rw [binary, List.length_append, ih, List.length_singleton]

theorem zerosLength (count : Nat) : (zeros count).length = count := List.length_replicate

theorem binaryRead (width n : Nat) : bigEndian (binary width n) = n % 256 ^ width := by
  induction width generalizing n with
  | zero => simp [binary, bigEndian, Nat.mod_one]
  | succ width ih =>
    have step : bigEndian (binary width (n / 256) ++ [UInt8.ofNat (n % 256)])
        = bigEndian (binary width (n / 256)) * 256 + n % 256 := by
      simp [bigEndian]
    rw [binary, step, ih, Nat.pow_succ', Nat.mod_mul]
    omega

theorem cutZeroZeros {bytes : Bytes} (plain : ∀ b ∈ bytes, b ≠ 0) (count : Nat) :
    cutZero (bytes ++ zeros count) = bytes := by
  have none : (zeros count).takeWhile (· ≠ 0) = [] := by cases count <;> rfl
  rw [cutZero, List.takeWhile_append_of_pos (by simpa using plain), none, List.append_nil]

def octalText : Nat → Nat → List Char
  | 0, _ => []
  | width + 1, n => octalText width (n / 8) ++ [Char.ofNat (48 + n % 8)]

theorem octalDigit (n : Nat) : (Char.ofNat (48 + n % 8)).toNat = 48 + n % 8 := by
  have each : ∀ d < 8, (Char.ofNat (48 + d)).toNat = 48 + d := by decide
  exact each _ (Nat.mod_lt _ (by decide))

theorem octalDigits (width n : Nat) : ∀ c ∈ octalText width n, 48 ≤ c.toNat ∧ c.toNat ≤ 55 := by
  induction width generalizing n with
  | zero => simp [octalText]
  | succ width ih =>
    intro c member
    rcases List.mem_append.mp member with front | last
    · exact ih _ c front
    · rw [List.mem_singleton.mp last, octalDigit]
      omega

theorem octalBytes (width n : Nat) : octal width n = Text.asciiBytes (octalText width n) := by
  induction width generalizing n with
  | zero => rfl
  | succ width ih =>
    rw [octal, octalText, ih, Text.asciiBytes, Text.asciiBytes, List.map_append, List.map_singleton, octalDigit]

theorem octalSum (width n : Nat) :
    (octalText width n).foldl (fun n c => n * 8 + (c.toNat - 48)) 0 = n % 8 ^ width := by
  induction width generalizing n with
  | zero => simp [octalText, Nat.mod_one]
  | succ width ih =>
    rw [octalText, List.foldl_append, ih, List.foldl_cons, List.foldl_nil, octalDigit, Nat.pow_succ', Nat.mod_mul]
    omega

theorem trimVisible {cs : List Char} (visible : ∀ c ∈ cs, Text.isBlank c = false) : Text.trim cs = cs := by
  have front {cs : List Char} (visible : ∀ c ∈ cs, Text.isBlank c = false) : cs.dropWhile Text.isBlank = cs := by
    cases cs with
    | nil => rfl
    | cons c cs => rw [List.dropWhile_cons_of_neg (by simp [visible c List.mem_cons_self])]
  rw [Text.trim, Text.trimStart, front visible, Text.trimEnd,
    front fun c member => visible c (List.mem_reverse.mp member), List.reverse_reverse]

theorem octalTextRead {width n : Nat} (room : n < 8 ^ (width + 1)) (small : n < 2 ^ 64) :
    octalValue? (octalText (width + 1) n) = some n := by
  have digits := octalDigits (width + 1) n
  have all : (octalText (width + 1) n).all (fun c => '0' ≤ c && c ≤ '7') = true := by
    refine List.all_eq_true.mpr fun c member => ?_
    simp only [Bool.and_eq_true, decide_eq_true_eq]
    exact digits c member
  have filled : (octalText (width + 1) n).isEmpty = false := by simp [octalText]
  have sum : (octalText (width + 1) n).foldl (fun n c => n * 8 + (c.toNat - 48)) 0 = n := by
    rw [octalSum, Nat.mod_eq_of_lt room]
  unfold octalValue?
  split
  next rest same =>
    have sign := digits '+' (same ▸ List.mem_cons_self)
    simp at sign
  next => simp only [filled, all, Bool.not_true, Bool.or_self, Bool.false_eq_true, if_false, sum, if_pos small]

theorem octalRead {width n : Nat} (room : n < 8 ^ (width + 1)) (small : n < 2 ^ 64) (header : Bytes) (field : String) :
    octalField header field (octal (width + 1) n ++ [0]) = .ok n := by
  have digits := octalDigits (width + 1) n
  have written : cutZero (octal (width + 1) n ++ [0]) = Text.asciiBytes (octalText (width + 1) n) := by
    rw [octalBytes]
    refine cutZeroZeros (fun b member zero => ?_) 1
    obtain ⟨c, from', rfl⟩ := List.mem_map.mp member
    have bounds := digits c from'
    have number := congrArg UInt8.toNat zero
    simp only [UInt8.toNat_ofNat', UInt8.toNat_zero] at number
    omega
  have text : Text.ofUtf8? (Text.asciiBytes (octalText (width + 1) n))
      = some (String.ofList (octalText (width + 1) n)) :=
    Text.ofUtf8Ascii fun c member => by have := digits c member; omega
  have blanks : Text.trim (octalText (width + 1) n) = octalText (width + 1) n := by
    refine trimVisible fun c member => ?_
    have bounds := digits c member
    simp only [Text.isBlank, Bool.or_eq_false_iff, Bool.and_eq_false_iff, decide_eq_false_iff_not]
    omega
  simp only [octalField, written, text, String.toList_ofList, blanks, octalTextRead room small]

/-! Headers. -/

structure Named (name : Bytes) : Prop where
  short : name.length ≤ 100
  plain : ∀ b ∈ name, b ≠ 0

theorem sizeFieldLength (size : Nat) : (sizeField size).length = 12 := by
  unfold sizeField
  split
  · rw [List.length_append, octalLength, List.length_singleton]
  · simp only [List.length_cons, List.length_append, zerosLength, binaryLength]

def headerStart (name : Bytes) : Bytes :=
  name ++ zeros (100 - name.length) ++ ascii "0000644" ++ [0] ++ ascii "0000000" ++ [0] ++ ascii "0000000" ++ [0]

def headerTime : Bytes := octal 11 0 ++ [0]

theorem frontSplit (name : Bytes) (size : Nat) :
    headerFront name size = headerStart name ++ (sizeField size ++ headerTime) := by
  simp only [headerFront, headerStart, headerTime, List.append_assoc]

def checkField (name : Bytes) (size : Nat) : Bytes := octal 7 (checkOf (headerFront name size) headerBack) ++ [0]

theorem checkLength (name : Bytes) (size : Nat) : (checkField name size).length = 8 := by
  rw [checkField, List.length_append, octalLength, List.length_singleton]

theorem headerSplit (name : Bytes) (size : Nat) :
    header name size = headerFront name size ++ (checkField name size ++ headerBack) := by
  simp only [header, checkField, List.append_assoc]

theorem backLength : headerBack.length = 356 := by
  simp only [headerBack, List.length_append, zerosLength]
  rfl

section

variable {name : Bytes} (named : Named name) (size : Nat)
include named

theorem startLength : (headerStart name).length = 124 := by
  have short := named.short
  have mode : (ascii "0000644").length = 7 := rfl
  have owner : (ascii "0000000").length = 7 := rfl
  simp only [headerStart, List.length_append, zerosLength, mode, owner, List.length_singleton]
  omega

theorem frontLength : (headerFront name size).length = 148 := by
  have time : headerTime.length = 12 := rfl
  rw [frontSplit, List.length_append, List.length_append, startLength named, sizeFieldLength, time]

theorem headerLength : (header name size).length = blockSize := by
  rw [headerSplit, List.length_append, List.length_append, frontLength named, checkLength, backLength]
  rfl

theorem sizeSlice : slice (header name size) 124 12 = sizeField size := by
  rw [headerSplit, frontSplit, List.append_assoc, List.append_assoc]
  exact sliceMiddle (startLength named) (sizeFieldLength size)

theorem checkSlice : slice (header name size) 148 8 = checkField name size := by
  rw [headerSplit]
  exact sliceMiddle (frontLength named size) (checkLength name size)

theorem headerTake : (header name size).take 148 = headerFront name size := by
  rw [headerSplit, List.take_left' (frontLength named size)]

theorem headerDrop : (header name size).drop 156 = headerBack := by
  rw [headerSplit, ← List.append_assoc, List.drop_left']
  rw [List.length_append, frontLength named, checkLength]

theorem nameSlice : slice (header name size) 0 100 = name ++ zeros (100 - name.length) := by
  have field : (name ++ zeros (100 - name.length)).length = 100 := by
    have short := named.short
    rw [List.length_append, zerosLength]
    omega
  rw [headerSplit, frontSplit, headerStart]
  simp only [List.append_assoc]
  rw [slice, List.drop_zero, ← List.append_assoc, List.take_left' field]

theorem backSlice (start count : Nat) :
    slice (header name size) (156 + start) count = slice headerBack start count := by
  rw [slice, ← List.drop_drop, headerDrop named, slice]

theorem headerGnu : isGnu (header name size) = true := by
  rw [isGnu, show 257 = 156 + 101 from rfl, backSlice named]
  decide

theorem headerNotUstar : isUstar (header name size) = false := by
  rw [isUstar, show 257 = 156 + 101 from rfl, backSlice named]
  decide

theorem headerKind : (header name size).getD 156 0 = 48 := by
  have back : (header name size).getD 156 0 = headerBack.getD 0 0 := by
    rw [← headerDrop named size]
    simp [List.getD_eq_getElem?_getD]
  rw [back]
  rfl

theorem headerNamed : headerName (header name size) = name := by
  simp only [headerName, headerNotUstar named, Bool.false_eq_true, if_false, List.isEmpty_nil, if_true, nameSlice named,
    cutZeroZeros named.plain]

end

/-! Numbers in headers. -/

theorem sizeRead {name : Bytes} (named : Named name) {size : Nat} (small : size < 2 ^ 64) :
    sizeOf (header name size) = .ok size := by
  simp only [sizeOf, sizeSlice named]
  unfold sizeField
  split
  next digits =>
    have low : ¬ 128 ≤ ((octal 11 size ++ [0]).headD 0).toNat := by
      rw [octalBytes]
      obtain ⟨c, rest, same⟩ : ∃ c rest, octalText 11 size = c :: rest :=
        List.exists_cons_of_ne_nil (by simp [octalText])
      have digit := octalDigits 11 size c (same ▸ List.mem_cons_self)
      rw [same]
      change ¬ 128 ≤ (UInt8.ofNat c.toNat).toNat
      rw [UInt8.toNat_ofNat']
      omega
    rw [if_neg low]
    exact octalRead digits small _ _
  next large =>
    have field : (0x80 :: zeros 3 ++ binary 8 size).drop 4 = binary 8 size := rfl
    have high : 128 ≤ ((0x80 :: zeros 3 ++ binary 8 size).headD 0).toNat := Nat.le_refl 128
    rw [if_pos high, field, binaryRead, Nat.mod_eq_of_lt (by omega)]

theorem sumBound (bytes : Bytes) : sum bytes ≤ 255 * bytes.length := by
  suffices step : ∀ total, bytes.foldl (fun total b => total + b.toNat) total ≤ total + 255 * bytes.length by
    simpa [sum] using step 0
  induction bytes with
  | nil => simp
  | cons b bytes ih =>
    intro total
    have byte := b.toNat_lt
    have rest := ih (total + b.toNat)
    simp only [List.foldl_cons, List.length_cons]
    omega

theorem checkBound {name : Bytes} (named : Named name) (size : Nat) :
    checkOf (headerFront name size) headerBack < 2 ^ 18 := by
  have front := sumBound (headerFront name size)
  have back := sumBound headerBack
  rw [frontLength named] at front
  rw [backLength] at back
  rw [checkOf]
  omega

/-! Members. -/

structure Entry.Fits (e : Entry) : Prop where
  named : Named e.name
  small : e.data.length + blockSize ≤ 2 ^ 64

theorem bodyRead {header data : Bytes} (small : data.length + blockSize ≤ 2 ^ 64) (rest : Bytes) :
    memberOf header (data ++ (zeros (paddingOf data.length) ++ rest)) data.length = .ok ⟨header, data, some rest⟩ := by
  have block : 0 < blockSize := by decide
  have within : ¬ 2 ^ 64 ≤ data.length + (blockSize - 1) := by omega
  have enough : ¬ (data ++ (zeros (paddingOf data.length) ++ rest)).length < data.length + paddingOf data.length := by
    simp only [List.length_append, zerosLength]
    omega
  have past : (data ++ (zeros (paddingOf data.length) ++ rest)).drop (data.length + paddingOf data.length) = rest := by
    rw [← List.append_assoc, List.drop_left']
    rw [List.length_append, zerosLength]
  simp only [memberOf, if_neg within, if_neg enough, past, List.take_left' rfl]

theorem memberRead {e : Entry} (fits : e.Fits) (rest : Bytes) :
    member (writeEntry e ++ rest) none = .ok (some ⟨header e.name e.data.length, e.data, some rest⟩) := by
  obtain ⟨named, small⟩ := fits
  have block : 0 < blockSize := by decide
  have bound := checkBound named e.data.length
  have length := headerLength named e.data.length
  have first : (writeEntry e ++ rest).take blockSize = header e.name e.data.length := by
    rw [writeEntry, List.append_assoc, List.append_assoc, List.take_left' length]
  have after : (writeEntry e ++ rest).drop blockSize = e.data ++ (zeros (paddingOf e.data.length) ++ rest) := by
    rw [writeEntry, List.append_assoc, List.append_assoc, List.drop_left' length]
  have filled : (header e.name e.data.length).isEmpty = false := by
    rw [List.isEmpty_eq_false_iff, ← List.length_pos_iff, length]
    exact block
  have marked : (header e.name e.data.length).all (· = 0) = false := by
    refine List.all_eq_false.mpr ⟨48, ?_, by decide⟩
    rw [headerSplit]
    exact List.mem_append_right _ (List.mem_append_right _ List.mem_cons_self)
  have check : octalField (header e.name e.data.length) "cksum" (slice (header e.name e.data.length) 148 8)
      = .ok (checkOf (headerFront e.name e.data.length) headerBack) := by
    rw [checkSlice named]
    exact octalRead (by omega) (by omega) _ _
  have same : checkOf (headerFront e.name e.data.length) headerBack % 2 ^ 32
      = checkOf (headerFront e.name e.data.length) headerBack := Nat.mod_eq_of_lt (by omega)
  have size := @sizeRead e.name named e.data.length (by omega)
  have known : (if e.data.length = 0 then Option.getD none 0 else e.data.length) = e.data.length := by
    split
    next zero => exact zero.symm
    next => rfl
  simp only [member, first, after, filled, length, marked, check, headerTake named, headerDrop named, same, size, known,
    bodyRead small, Nat.lt_irrefl, ne_eq, not_true_eq_false, Bool.false_eq_true, if_false, bind, Except.bind, pure,
    Except.pure]

theorem memberEnd : member (zeros (2 * blockSize)) none = .ok none := by
  have first : (zeros (2 * blockSize)).take blockSize = zeros blockSize := by
    rw [zeros, List.take_replicate]
    rfl
  have all : (zeros blockSize).all (· = 0) = true := by simp [zeros]
  have filled : (zeros blockSize).isEmpty = false := rfl
  simp only [member, first, all, filled, zerosLength, Nat.lt_irrefl, Bool.false_eq_true, if_false, if_true]

theorem entryAdded {e : Entry} (fits : e.Fits) (rest : Option Bytes) :
    Announced.add {} ⟨header e.name e.data.length, e.data, rest⟩ = .ok none := by
  have kind := headerKind fits.named e.data.length
  simp only [Announced.add, headerGnu fits.named, Bool.true_or, if_true, kind]
  rfl

theorem entriesRead (es : List Entry) (fits : ∀ e ∈ es, e.Fits) {fuel : Nat} (enough : es.length < fuel) :
    entries {} fuel (some (write es)) = .ok es := by
  obtain ⟨fuel, rfl⟩ : ∃ n, fuel = n + 1 := ⟨fuel - 1, by omega⟩
  induction es generalizing fuel with
  | nil =>
    have last : write [] = zeros (2 * blockSize) := rfl
    simp only [last, entries, Option.bind_none, memberEnd, bind, Except.bind, Announced.isEmpty, Option.isNone_none,
      Bool.not_false, Bool.and_self, if_true, pure, Except.pure]
  | cons e es ih =>
    obtain ⟨here, others⟩ := List.forall_mem_cons.mp fits
    have split : write (e :: es) = writeEntry e ++ write es := by
      simp only [write, List.flatMap_cons, List.append_assoc]
    obtain ⟨fuel, rfl⟩ : ∃ n, fuel = n + 1 := ⟨fuel - 1, by rw [List.length_cons] at enough; omega⟩
    have rest := ih others fuel (by rw [List.length_cons] at enough; omega)
    have name : Announced.name {} (header e.name e.data.length) = e.name := by
      simp only [Announced.name, Option.bind_none, Option.getD_none, headerNamed here.named]
    rw [split, entries]
    simp only [Option.bind_none, memberRead here, entryAdded here, rest, name, bind, Except.bind, pure, Except.pure]

theorem writeLength (es : List Entry) : es.length ≤ (write es).length := by
  have each (e : Entry) : 1 ≤ (writeEntry e).length := by
    rw [writeEntry, headerSplit]
    simp only [List.length_append, checkLength]
    omega
  rw [write, List.length_append]
  refine Nat.le_trans ?_ (Nat.le_add_right _ _)
  induction es with
  | nil => exact Nat.le_refl 0
  | cons e es ih =>
    have here := each e
    rw [List.flatMap_cons, List.length_append, List.length_cons]
    omega

theorem entryWithin {es : List Entry} {e : Entry} (member : e ∈ es) (named : Named e.name) :
    e.data.length + blockSize ≤ (write es).length := by
  obtain ⟨before, after, rfl⟩ := List.append_of_mem member
  have length := headerLength named e.data.length
  simp only [write, List.flatMap_append, List.flatMap_cons, List.length_append, writeEntry, length]
  omega

theorem readWrite {es : List Entry} (fits : ∀ e ∈ es, e.Fits) : read (write es) = .ok es :=
  entriesRead es fits (by have := writeLength es; omega)

end Conduit.Tar
