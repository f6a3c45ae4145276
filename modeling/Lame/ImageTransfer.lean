/-
  Lame/ImageTransfer.lean
  =======================
  **An image on its way: `SendCameraImage` and `ImageListenerThread`.**

  The robot writes a header of seven bytes and then the compressed image to one
  connection.  The base station reads the header with a single request for
  sixteen bytes, takes the image size and the camera id out of it, and collects
  what is left of the stream in a buffer that doubles whenever it is full.

  The loop is right for every segmentation of the stream (`readLoop_spec`): each
  iteration keeps what has been collected followed by what is still to come.  It ends
  early only when an array it asks for is longer than an array of bytes may be
  (`Fits`).  The request for the header is not: whatever it delivers beyond the seventh byte is
  image data that is never looked at again, and a delivery of fewer than seven
  bytes is not recognised as a header at all, so that its remainder is taken for
  image data.  `imageTransfer_iff` says that a delivery of exactly seven bytes is
  what the round trip needs.
-/
import Lame.RobotSteps
import Lame.StreamReads
import Mathlib.Algebra.Group.Nat.Defs
import Mathlib.Data.List.GetD

namespace Lame.ImageTransfer

open HighLowBytes StreamReads

/-! ## 1. Arrays and the stream -/

/-- The exceptions an array operation ends in, and a loop that is not done when
    its fuel is spent. -/
inductive Fault where
  | overflow
  | outOfMemory
  | outOfRange
  | outOfFuel
deriving DecidableEq, Repr

/-- The length of the longest `byte[]` there is. -/
def MAX_BYTES : Nat := 0x7FFFFFC7

/-- `new byte[length]` -/
def newArray (length : Int32) : Except Fault (List UInt8) :=
  if length < 0 then .error .overflow
  else if MAX_BYTES < length.toNatClampNeg then .error .outOfMemory
  else .ok (List.replicate length.toNatClampNeg 0)

/-- `array[i] = value` -/
def setByte (array : List UInt8) (i : Nat) (value : UInt8) : Except Fault (List UInt8) :=
  if i < array.length then .ok (array.set i value) else .error .outOfRange

/-- `Array.Copy(source, dest, length)` -/
def arrayCopy (source dest : List UInt8) (length : Nat) : Except Fault (List UInt8) :=
  if length ≤ source.length ∧ length ≤ dest.length then
    .ok (source.take length ++ dest.drop length)
  else .error .outOfRange

/-- `stream.Read(buffer, offset, count)`: the return value, the buffer and the stream. -/
def streamRead (stream : Source UInt8) (buffer : List UInt8) (offset count : Nat) :
    Except Fault (Nat × List UInt8 × Source UInt8) :=
  if offset + count ≤ buffer.length then
    let (data, stream) := stream.read count
    .ok (data.length, buffer.take offset ++ data ++ buffer.drop (offset + data.length), stream)
  else .error .outOfRange

/-! ## 2. `ImageListenerThread` -/

structure Reading where
  stream : Source UInt8
  buffer : List UInt8
  read : Nat

/-- "Resize the buffer, put in the byte we've just read". -/
def resize (buffer : List UInt8) (read : Nat) (nextByte : UInt8) : Except Fault (List UInt8) := do
  let newBuffer ← newArray (Int32.ofNat buffer.length * 2)
  let newBuffer ← arrayCopy buffer newBuffer buffer.length
  setByte newBuffer read nextByte

/-- The loop condition and the body; false when the loop is left. -/
def readIteration (locals : Reading) : Except Fault (Reading × Bool) := do
  let (chunk, buffer, stream) ←
    streamRead locals.stream locals.buffer locals.read (locals.buffer.length - locals.read)
  if chunk = 0 then return (⟨stream, buffer, locals.read⟩, false)
  let read := locals.read + chunk
  if read = buffer.length then
    match stream.readOne with
    | (none, stream) => return (⟨stream, buffer, read⟩, false)
    | (some nextByte, stream) =>
        let newBuffer ← resize buffer read nextByte
        return (⟨stream, newBuffer, read + 1⟩, true)
  else return (⟨stream, buffer, read⟩, true)

def readLoop : Nat → Reading → Except Fault Reading
  | 0, _ => .error .outOfFuel
  | fuel + 1, locals => do
      let (locals, goesOn) ← readIteration locals
      if goesOn then readLoop fuel locals else return locals

/-- `size`, from the sixteen bytes of `hdr_pkt`. -/
def headerSize (hdr_pkt : List UInt8) : Int32 :=
  if hdr_pkt.getD 0 0 = 0xAA ∧ hdr_pkt.getD 6 0 = 0x7F then
    joinInt32 (hdr_pkt.getD 1 0) (hdr_pkt.getD 2 0) (hdr_pkt.getD 3 0) (hdr_pkt.getD 4 0)
  else 32768

/-- What the thread goes on to decode and display. -/
structure ReceivedImage where
  img_id : Nat
  ret : List UInt8
deriving DecidableEq, Repr

/-- One connection of `ImageListenerThread`, up to the array `ret`. -/
def imageListenerThread (fuel : Nat) (stream : Source UInt8) : Except Fault ReceivedImage := do
  let hdr_pkt ← newArray 16
  let (_, hdr_pkt, stream) ← streamRead stream hdr_pkt 0 16
  let size := headerSize hdr_pkt
  let img_id := (hdr_pkt.getD 5 0).toNat
  let buffer ← newArray size
  let locals ← readLoop fuel ⟨stream, buffer, 0⟩
  let ret ← newArray (Int32.ofNat locals.read)
  let ret ← arrayCopy locals.buffer ret locals.read
  return ⟨img_id, ret⟩

/-! ## 3. What the operations do -/

@[simp] theorem ok_bind {β γ : Type} (value : β) (next : β → Except Fault γ) :
    (Except.ok value >>= next) = next value := rfl

theorem not_ofNat_neg {length : Nat} (h : length < 2 ^ 31) : ¬ Int32.ofNat length < 0 := by
  rw [Int32.lt_iff_toInt_lt, Int32.toInt_ofNat_of_lt h]
  simp

theorem newArray_ofNat {length : Nat} (h : length ≤ MAX_BYTES) :
    newArray (Int32.ofNat length) = .ok (List.replicate length 0) := by
  have hint : length < 2 ^ 31 := Nat.lt_of_le_of_lt h (by decide)
  rw [newArray, if_neg (not_ofNat_neg hint), Int32.toNatClampNeg_ofNat_of_lt hint,
    if_neg (Nat.not_lt.mpr h)]

theorem newArray_outOfMemory {length : Nat} (h : MAX_BYTES < length) (hint : length < 2 ^ 31) :
    newArray (Int32.ofNat length) = .error .outOfMemory := by
  rw [newArray, if_neg (not_ofNat_neg hint), Int32.toNatClampNeg_ofNat_of_lt hint, if_pos h]

/-- `buffer.Length * 2` wraps around to a negative number from 2^30 on. -/
theorem newArray_double_overflow {length : Nat} (hlow : 2 ^ 30 ≤ length)
    (hhigh : length < 2 ^ 31) : newArray (Int32.ofNat length * 2) = .error .overflow := by
  have hneg : Int32.ofNat length * 2 < 0 := by
    rw [show (2 : Int32) = Int32.ofNat 2 from rfl, ← Int32.ofNat_mul, Int32.lt_iff_toInt_lt,
      Int32.toInt_ofNat']
    simp only [Int32.size, Int.bmod]
    split <;> simp <;> omega
  rw [newArray, if_pos hneg]

theorem streamRead_eq (stream : Source UInt8) (buffer : List UInt8) {offset count : Nat}
    (h : offset + count ≤ buffer.length) :
    streamRead stream buffer offset count =
      .ok (stream.delivery count, buffer.take offset ++ (stream.read count).1 ++
        buffer.drop (offset + stream.delivery count), (stream.read count).2) := by
  rw [streamRead, if_pos h, ← stream.length_read count]

/-- A full buffer doubles, and the byte goes right behind the old contents. -/
theorem resize_spec (buffer : List UInt8) (nextByte : UInt8) (hpos : 0 < buffer.length)
    (hlen : buffer.length * 2 ≤ MAX_BYTES) :
    resize buffer buffer.length nextByte =
      .ok (buffer ++ nextByte :: List.replicate (buffer.length - 1) 0) := by
  have hnew : newArray (Int32.ofNat buffer.length * 2) =
      .ok (List.replicate (buffer.length * 2) 0) := by
    rw [show (2 : Int32) = Int32.ofNat 2 from rfl, ← Int32.ofNat_mul]
    exact newArray_ofNat hlen
  have hcopy : arrayCopy buffer (List.replicate (buffer.length * 2) 0) buffer.length =
      .ok (buffer ++ List.replicate buffer.length 0) := by
    rw [arrayCopy, if_pos ⟨Nat.le_refl _, by rw [List.length_replicate]; omega⟩,
      List.take_length, List.drop_replicate, show buffer.length * 2 - buffer.length =
        buffer.length by omega]
  rw [resize, hnew, ok_bind, hcopy, ok_bind, setByte, if_pos (by simp [hpos]),
    List.set_append_right _ _ (Nat.le_refl _), Nat.sub_self]
  rw [show List.replicate buffer.length (0 : UInt8) =
      0 :: List.replicate (buffer.length - 1) 0 by
    rw [← List.replicate_succ, show buffer.length - 1 + 1 = buffer.length by omega],
    List.set_cons_zero]

/-- A doubling that is too long throws; which exception it is depends on the sign. -/
theorem resize_error (buffer : List UInt8) (nextByte : UInt8)
    (hlarge : MAX_BYTES < buffer.length * 2) (hhigh : buffer.length < 2 ^ 31) :
    ∃ fault, resize buffer buffer.length nextByte = .error fault ∧
      (buffer.length < 2 ^ 30 → fault = .outOfMemory) := by
  by_cases hlow : buffer.length < 2 ^ 30
  · have hnew : newArray (Int32.ofNat buffer.length * 2) = .error .outOfMemory := by
      rw [show (2 : Int32) = Int32.ofNat 2 from rfl, ← Int32.ofNat_mul]
      exact newArray_outOfMemory hlarge (by omega)
    rw [resize, hnew]
    exact ⟨_, rfl, fun _ => rfl⟩
  · rw [resize, newArray_double_overflow (Nat.not_lt.mp hlow) hhigh]
    exact ⟨_, rfl, fun h => absurd h hlow⟩

/-! ## 4. The read loop -/

/-- The arrays that the loop asks for while it collects `n` bytes, from an initial size,
    are none too long. -/
def Fits (size n : Nat) : Prop :=
  size ≤ MAX_BYTES ∧ ∀ k, size * 2 ^ k < n → size * 2 ^ k * 2 ≤ MAX_BYTES

/-- The loop invariant: what has been collected followed by what is still to come
    is what was sent, there is room for the next byte, and the buffer has grown from
    its initial size. -/
structure Filling (size : Nat) (sent : List UInt8) (locals : Reading) : Prop where
  content : locals.buffer.take locals.read ++ locals.stream.rest = sent
  room : locals.read < locals.buffer.length
  two_le : 2 ≤ locals.buffer.length
  isArray : locals.buffer.length ≤ MAX_BYTES
  grown : ∃ k, locals.buffer.length = size * 2 ^ k

structure Collected (size : Nat) (sent : List UInt8) (locals : Reading) : Prop where
  content : locals.buffer.take locals.read = sent
  fits : locals.read ≤ locals.buffer.length
  isArray : locals.buffer.length ≤ MAX_BYTES
  grown : ∃ k, locals.buffer.length = size * 2 ^ k

/-- What is collected in the end has asked for no array that is too long. -/
theorem Collected.fits_sent {size : Nat} {sent : List UInt8} {locals : Reading}
    (h : Collected size sent locals) : Fits size sent.length := by
  obtain ⟨grown, hgrown⟩ := h.grown
  have hsent : sent.length ≤ size * 2 ^ grown := by
    rw [← h.content, List.length_take, ← hgrown]
    omega
  have hmax : size * 2 ^ grown ≤ MAX_BYTES := hgrown ▸ h.isArray
  refine ⟨?_, fun k hk => ?_⟩
  · calc size = size * 1 := (Nat.mul_one size).symm
      _ ≤ size * 2 ^ grown := Nat.mul_le_mul_left size Nat.one_le_two_pow
      _ ≤ MAX_BYTES := hmax
  · -- the buffer was doubled once more after that
    have hless : k < grown := by
      have hlt : size * 2 ^ k < size * 2 ^ grown := Nat.lt_of_lt_of_le hk hsent
      exact (Nat.pow_lt_pow_iff_right (by decide)).mp (Nat.lt_of_mul_lt_mul_left hlt)
    calc size * 2 ^ k * 2 = size * 2 ^ (k + 1) := by rw [Nat.mul_assoc, Nat.pow_succ]
      _ ≤ size * 2 ^ grown :=
        Nat.mul_le_mul_left size (Nat.pow_le_pow_right (by decide) hless)
      _ ≤ MAX_BYTES := hmax

/-- Half of the longest array is enough for everything. -/
theorem Fits.of_short {size n : Nat} (hsize : size ≤ MAX_BYTES) (hn : n * 2 ≤ MAX_BYTES + 2) :
    Fits size n :=
  ⟨hsize, fun k hk => by omega⟩

/-- So is an initial size that needs no doubling. -/
theorem Fits.of_le {size n : Nat} (hsize : size ≤ MAX_BYTES) (hn : n ≤ size) : Fits size n := by
  refine ⟨hsize, fun k hk => ?_⟩
  have hgrows : size ≤ size * 2 ^ k := Nat.le_mul_of_pos_right size (Nat.two_pow_pos k)
  omega

/-- A call moves some bytes from the stream to the buffer; it moves none only at
    the end of the stream, since there is room. -/
theorem streamRead_filling {size : Nat} {sent : List UInt8} {locals : Reading}
    (h : Filling size sent locals) :
    ∃ chunk buffer stream,
      streamRead locals.stream locals.buffer locals.read
        (locals.buffer.length - locals.read) = .ok (chunk, buffer, stream) ∧
      buffer.length = locals.buffer.length ∧ locals.read + chunk ≤ buffer.length ∧
      buffer.take (locals.read + chunk) ++ stream.rest = sent ∧
      stream.rest.length + chunk = locals.stream.rest.length ∧
      (chunk = 0 → stream.rest = []) := by
  obtain ⟨stream, buffer, read⟩ := locals
  obtain ⟨hcontent, hroom, -, -, -⟩ := h
  dsimp only at hcontent hroom ⊢
  have hle := stream.delivery_le_count (buffer.length - read)
  have hfront : (buffer.take read ++ (stream.read (buffer.length - read)).1).length =
      read + stream.delivery (buffer.length - read) := by
    rw [List.length_append, List.length_take, stream.length_read]
    omega
  have hrest := stream.length_read_rest (buffer.length - read)
  have havailable := stream.delivery_le_length (buffer.length - read)
  refine ⟨_, _, _, streamRead_eq stream buffer (by omega), ?_, ?_, ?_, by omega, ?_⟩
  · rw [List.length_append, hfront, List.length_drop]
    omega
  · rw [List.length_append, hfront]
    omega
  · rw [← hfront, List.take_left, List.append_assoc, stream.read_append, hcontent]
  · intro hzero
    have hend := (stream.delivery_eq_zero_iff (by omega)).mp hzero
    rw [← List.length_eq_zero_iff, hrest, hend, List.length_nil, Nat.zero_sub]

/-- The ways an iteration can end. -/
inductive Progress (size : Nat) (sent : List UInt8) (locals : Reading) :
    Except Fault (Reading × Bool) → Prop
  | again (next : Reading) (filling : Filling size sent next)
      (less : next.stream.rest.length < locals.stream.rest.length) :
      Progress size sent locals (.ok (next, true))
  | done (last : Reading) (collected : Collected size sent last) :
      Progress size sent locals (.ok (last, false))
  | tooLong (fault : Fault) (large : ¬ Fits size sent.length)
      (memory : sent.length < 2 ^ 30 → fault = .outOfMemory) :
      Progress size sent locals (.error fault)

/-- **One iteration keeps the invariant, however much the call delivers.** -/
theorem readIteration_spec {size : Nat} {sent : List UInt8} {locals : Reading}
    (h : Filling size sent locals) : Progress size sent locals (readIteration locals) := by
  obtain ⟨chunk, buffer, stream, hread, hlength, hfits, hcontent, hless, hend⟩ :=
    streamRead_filling h
  have htwo := h.two_le
  have harray : buffer.length ≤ MAX_BYTES := hlength ▸ h.isArray
  have hgrown : ∃ k, buffer.length = size * 2 ^ k := hlength ▸ h.grown
  rw [readIteration, hread, ok_bind]
  dsimp only
  by_cases hchunk : chunk = 0
  · -- the stream has ended and the buffer is not yet full
    rw [if_pos hchunk]
    rw [hend hchunk, List.append_nil, hchunk, Nat.add_zero] at hcontent
    exact .done _ ⟨hcontent, by dsimp only; omega, harray, hgrown⟩
  · rw [if_neg hchunk]
    by_cases hfull : locals.read + chunk = buffer.length
    · -- the buffer is full: one more byte decides between leaving and doubling
      rw [if_pos hfull, hfull]
      rw [hfull, List.take_length] at hcontent
      cases hnext : stream.rest with
      | nil =>
          have hone := stream.readOne_nil hnext
          generalize stream.readOne = probe at hone
          obtain ⟨nextByte, stream'⟩ := probe
          subst hone
          rw [hnext, List.append_nil] at hcontent
          exact .done _ ⟨by rw [List.take_length, hcontent], Nat.le_refl _, harray, hgrown⟩
      | cons first rest =>
          obtain ⟨hone, htail⟩ := stream.readOne_cons hnext
          generalize stream.readOne = probe at hone htail
          obtain ⟨nextByte, stream'⟩ := probe
          subst hone
          dsimp only at htail ⊢
          rw [hnext] at hcontent hless
          have hmore : buffer.length < sent.length := by
            rw [← hcontent, List.length_append, List.length_cons]
            omega
          obtain ⟨k, hk⟩ := hgrown
          by_cases hlarge : MAX_BYTES < buffer.length * 2
          · obtain ⟨fault, hfault, hmemory⟩ := resize_error buffer first hlarge
              (Nat.lt_of_le_of_lt harray (by decide))
            rw [hfault]
            refine .tooLong fault (fun hfits => ?_) fun hshort => hmemory (by omega)
            have hsmall := hfits.2 k (hk ▸ hmore)
            omega
          · rw [resize_spec buffer first (by omega) (by omega), ok_bind]
            have hdouble : (buffer ++ first :: List.replicate (buffer.length - 1) 0).length =
                buffer.length * 2 := by
              rw [List.length_append, List.length_cons, List.length_replicate]
              omega
            refine .again _ ⟨?_, by dsimp only; omega, by dsimp only; omega,
              by dsimp only; omega, k + 1, ?_⟩ ?_
            · dsimp only
              rw [List.take_length_add_append, List.take_succ_cons, List.take_zero, htail,
                List.append_assoc]
              exact hcontent
            · dsimp only
              rw [hdouble, hk, Nat.pow_succ, Nat.mul_assoc]
            · dsimp only
              rw [htail, ← hless, List.length_cons]
              omega
    · rw [if_neg hfull]
      exact .again _ ⟨hcontent, by dsimp only; omega, by dsimp only; omega, harray, hgrown⟩
        (by dsimp only; omega)

/-- **The loop collects the whole stream**, unless that takes an array that is too long.
    Every iteration but the last takes something off the stream. -/
theorem readLoop_spec {size : Nat} {sent : List UInt8} (fuel : Nat) (locals : Reading)
    (h : Filling size sent locals) (hfuel : locals.stream.rest.length < fuel) :
    (∃ last, readLoop fuel locals = .ok last ∧ Collected size sent last) ∨
      ∃ fault, readLoop fuel locals = .error fault ∧ ¬ Fits size sent.length ∧
        (sent.length < 2 ^ 30 → fault = .outOfMemory) := by
  induction fuel generalizing locals with
  | zero => exact absurd hfuel (Nat.not_lt_zero _)
  | succ fuel ih =>
      have hprogress := readIteration_spec h
      rw [readLoop]
      cases hiteration : readIteration locals with
      | error fault =>
          rw [hiteration] at hprogress
          cases hprogress with
          | tooLong _ hlarge hmemory => exact .inr ⟨fault, rfl, hlarge, hmemory⟩
      | ok result =>
          rw [hiteration] at hprogress
          cases hprogress with
          | done last hcollected => exact .inl ⟨last, rfl, hcollected⟩
          | again next hfilling hless => exact ih next hfilling (by omega)

/-- `ImageListenerThread` from `buffer` to `ret`, for an initial size. -/
def collect (fuel : Nat) (stream : Source UInt8) (size : Int32) : Except Fault (List UInt8) := do
  let buffer ← newArray size
  let locals ← readLoop fuel ⟨stream, buffer, 0⟩
  let ret ← newArray (Int32.ofNat locals.read)
  arrayCopy locals.buffer ret locals.read

theorem collect_spec (fuel : Nat) (stream : Source UInt8) {size : Nat} (hlow : 2 ≤ size)
    (hhigh : size < 2 ^ 31) (hfuel : stream.rest.length < fuel) :
    (collect fuel stream (Int32.ofNat size) = .ok stream.rest ∧ Fits size stream.rest.length) ∨
      ∃ fault, collect fuel stream (Int32.ofNat size) = .error fault ∧
        ¬ Fits size stream.rest.length ∧
        (stream.rest.length < 2 ^ 30 → fault = .outOfMemory) := by
  by_cases hsize : size ≤ MAX_BYTES
  · have hfilling : Filling size stream.rest ⟨stream, List.replicate size 0, 0⟩ := by
      refine ⟨rfl, ?_, ?_, ?_, 0, ?_⟩ <;> dsimp only <;> rw [List.length_replicate] <;> omega
    rw [collect, newArray_ofNat hsize, ok_bind]
    rcases readLoop_spec fuel _ hfilling hfuel with
      ⟨last, hlast, hcollected⟩ | ⟨fault, hfault, hlarge⟩
    · left
      have hfits := hcollected.fits
      have harray := hcollected.isArray
      refine ⟨?_, hcollected.fits_sent⟩
      rw [hlast, ok_bind, newArray_ofNat (by omega), ok_bind, arrayCopy,
        if_pos ⟨hfits, by simp⟩, hcollected.content, List.drop_replicate, Nat.sub_self,
        List.replicate_zero, List.append_nil]
    · right
      rw [hfault]
      exact ⟨fault, rfl, hlarge⟩
  · right
    rw [collect, newArray_outOfMemory (Nat.not_le.mp hsize) hhigh]
    exact ⟨_, rfl, fun hfits => hsize hfits.1, fun _ => rfl⟩

/-- **The growing buffer collects the whole stream**, however it is cut into chunks, from
    every initial size from which no array gets too long; from the others the allocation
    throws. -/
theorem collect_stream (fuel : Nat) (stream : Source UInt8) (size : Int32) (hsize : 2 ≤ size)
    (hrest : stream.rest.length < 2 ^ 30) (hfuel : stream.rest.length < fuel) :
    (Fits size.toNatClampNeg stream.rest.length → collect fuel stream size = .ok stream.rest) ∧
      (¬ Fits size.toNatClampNeg stream.rest.length →
        collect fuel stream size = .error .outOfMemory) := by
  have hnonneg : 0 ≤ size := Int32.le_trans (by decide) hsize
  have hlow : 2 ≤ size.toNatClampNeg := by
    have htwo := Int32.le_iff_toInt_le.mp hsize
    rw [Int32.toInt_eq_toNatClampNeg hnonneg] at htwo
    exact Int.ofNat_le.mp htwo
  have hspec := collect_spec fuel stream hlow size.toNatClampNeg_lt hfuel
  rw [Int32.ofNat_toNatClampNeg size hnonneg] at hspec
  rcases hspec with ⟨hok, hfits⟩ | ⟨fault, herror, hlarge, hmemory⟩
  · exact ⟨fun _ => hok, fun hlarge => absurd hfits hlarge⟩
  · rw [herror, hmemory hrest]
    exact ⟨fun hfits => absurd hfits hlarge, fun _ => rfl⟩

theorem collect_stream_doubling :
    Fits 2 7 ∧ collect 8 ⟨[0xFF, 0xD8, 0x00, 0x10, 0x00, 0xFF, 0xD9], fun i => i⟩ 2 =
      .ok [0xFF, 0xD8, 0x00, 0x10, 0x00, 0xFF, 0xD9] := by
  have hfits : Fits 2 7 := .of_short (by decide) (by decide)
  exact ⟨hfits, (collect_stream 8 _ 2 (by decide) (by decide) (by decide)).1 hfits⟩

/-- There is no array of `Int32.MaxValue` bytes. -/
theorem not_forall_collect_stream :
    ¬ ∀ (fuel : Nat) (stream : Source UInt8) (size : Int32), 2 ≤ size →
      stream.rest.length < 2 ^ 30 → stream.rest.length < fuel →
      collect fuel stream size = .ok stream.rest := by
  intro h
  have hsent := h 3 ⟨[0xFF, 0xD9], fun _ => 2⟩ 0x7FFFFFFF (by decide) (by decide) (by decide)
  have hnew : newArray 0x7FFFFFFF = .error .outOfMemory :=
    @newArray_outOfMemory 0x7FFFFFFF (by decide) (by decide)
  rw [collect, hnew] at hsent
  cases hsent

/-! ## 5. The header -/

theorem headerSize_imageHeader (size id : Nat) (more : List UInt8) :
    headerSize (Robot.imageHeader size id ++ more) = Int32.ofNat size ∧
      (Robot.imageHeader size id ++ more).getD 5 0 = UInt8.ofNat id :=
  ⟨joinInt32_shiftRight size, rfl⟩

theorem headerSize_short (data : List UInt8) (h : data.length < 7) :
    headerSize (data ++ List.replicate (16 - data.length) 0) = 32768 := by
  have hend : (data ++ List.replicate (16 - data.length) 0).getD 6 0 = 0 := by
    rw [List.getD_append_right _ _ _ _ (by omega), List.getD_replicate _ (by omega)]
  rw [headerSize, if_neg]
  rintro ⟨-, hdelimiter⟩
  rw [hend] at hdelimiter
  exact absurd hdelimiter (by decide)

/-- What the thread does behind the header is `collect`. -/
theorem imageListenerThread_tail (fuel : Nat) (stream : Source UInt8) (size : Int32)
    (img_id : Nat) :
    (do let buffer ← newArray size
        let locals ← readLoop fuel ⟨stream, buffer, 0⟩
        let ret ← newArray (Int32.ofNat locals.read)
        let ret ← arrayCopy locals.buffer ret locals.read
        return ⟨img_id, ret⟩ : Except Fault ReceivedImage) =
      (do let ret ← collect fuel stream size
          return ⟨img_id, ret⟩) := by
  simp only [collect, bind_assoc]

/-- **The thread past the header**: `ret` is what the request for the header left in
    the stream, whatever the size was taken to be. -/
theorem imageListenerThread_spec (fuel : Nat) (stream : Source UInt8) (size : Nat)
    (hsize : headerSize ((stream.read 16).1 ++ List.replicate (16 - stream.delivery 16) 0) =
      Int32.ofNat size) (hlow : 2 ≤ size) (hhigh : size < 2 ^ 31)
    (hfuel : stream.rest.length < fuel) :
    imageListenerThread fuel stream = .ok ⟨(((stream.read 16).1 ++
        List.replicate (16 - stream.delivery 16) 0).getD 5 0).toNat,
        (stream.read 16).2.rest⟩ ∨
      ∃ fault, imageListenerThread fuel stream = .error fault ∧
        ¬ Fits size (stream.read 16).2.rest.length := by
  have hheader : streamRead stream (List.replicate 16 0) 0 16 = .ok (stream.delivery 16,
      (stream.read 16).1 ++ List.replicate (16 - stream.delivery 16) 0,
      (stream.read 16).2) := by
    rw [streamRead_eq stream _ (by simp), List.take_zero, List.nil_append, Nat.zero_add,
      List.drop_replicate]
  have hrest := stream.length_read_rest 16
  rw [imageListenerThread, show (16 : Int32) = Int32.ofNat 16 from rfl,
    newArray_ofNat (by decide), ok_bind, hheader, ok_bind]
  dsimp only
  rw [hsize, imageListenerThread_tail]
  rcases collect_spec fuel (stream.read 16).2 hlow hhigh (by omega) with
    ⟨hok, -⟩ | ⟨fault, hfault, hlarge, -⟩
  · left
    rw [hok]
    rfl
  · right
    rw [hfault]
    exact ⟨fault, rfl, hlarge⟩

/-! ## 6. The round trip -/

section Arrival

variable {id fuel : Nat} {image : List UInt8} {stream : Source UInt8}

theorem length_of_arrival (hrest : stream.rest = Robot.imageHeader image.length id ++ image) :
    stream.rest.length = 7 + image.length := by
  rw [hrest, List.length_append]
  rfl

/-- A delivery of the whole header: the bytes that came with it are lost. -/
theorem imageListenerThread_recognised
    (hrest : stream.rest = Robot.imageHeader image.length id ++ image)
    (hlow : 2 ≤ image.length) (hhigh : image.length ≤ 2 ^ 30)
    (hfuel : stream.rest.length < fuel) (hwhole : 7 ≤ stream.delivery 16) :
    imageListenerThread fuel stream =
      .ok ⟨(UInt8.ofNat id).toNat, image.drop (stream.delivery 16 - 7)⟩ := by
  have hseven : (Robot.imageHeader image.length id).length = 7 := rfl
  have hlength := length_of_arrival hrest
  have hleft := stream.length_read_rest 16
  have hdata : (stream.read 16).1 =
      Robot.imageHeader image.length id ++ image.take (stream.delivery 16 - 7) := by
    rw [Source.read, hrest, List.take_append, List.take_of_length_le (by omega), hseven]
  have hafter : (stream.read 16).2.rest = image.drop (stream.delivery 16 - 7) := by
    rw [Source.read, hrest, List.drop_append, List.drop_of_length_le (by omega), hseven,
      List.nil_append]
  obtain ⟨hsize, hid⟩ := headerSize_imageHeader image.length id
    (image.take (stream.delivery 16 - 7) ++ List.replicate (16 - stream.delivery 16) 0)
  rw [← List.append_assoc, ← hdata] at hsize hid
  rcases imageListenerThread_spec fuel stream _ hsize hlow (by omega) hfuel with
    hok | ⟨-, -, hlarge⟩
  · rw [hok, hid, hafter]
  · refine absurd (Fits.of_le ?_ ?_) hlarge
    · exact Nat.le_trans hhigh (by decide)
    · rw [hafter, List.length_drop]
      omega

/-- A delivery of a part of the header: the rest of it is taken for image data. -/
theorem imageListenerThread_unrecognised
    (hrest : stream.rest = Robot.imageHeader image.length id ++ image)
    (hfuel : stream.rest.length < fuel) (hshort : stream.delivery 16 < 7)
    {received : ReceivedImage} (h : imageListenerThread fuel stream = .ok received) :
    received.ret.length + stream.delivery 16 = 7 + image.length := by
  have hlength := length_of_arrival hrest
  have hleft := stream.length_read_rest 16
  have hsize := headerSize_short (stream.read 16).1 (by rwa [stream.length_read])
  rw [stream.length_read] at hsize
  rcases imageListenerThread_spec fuel stream 32768 hsize (by omega) (by omega) hfuel with
    hok | ⟨fault, herror, -⟩
  · rw [← Except.ok.inj (hok.symm.trans h)]
    dsimp only
    omega
  · cases herror.symm.trans h

end Arrival

/-- **The image arrives intact exactly when the request for the header delivers the
    seven bytes of the header and no more.** -/
theorem imageTransfer_iff (imencode : Mat → Nat → Option (List UInt8)) (robot : Robot)
    (id : Nat) (link : ImageLink) {dest : Option SockAddr} {header image : List UInt8}
    (hsent : .image dest header image ∈ Robot.sendCameraImage imencode robot id link)
    (hlow : 2 ≤ image.length) (hhigh : image.length ≤ 2 ^ 30) (chunks : Nat → Nat)
    {fuel : Nat} (hfuel : (header ++ image).length < fuel) :
    imageListenerThread fuel ⟨header ++ image, chunks⟩ =
      .ok ⟨(UInt8.ofNat id).toNat, image⟩ ↔ chunks 0 = 7 := by
  obtain rfl : header = Robot.imageHeader image.length id := by
    rcases Robot.sendCameraImage_cases imencode robot id link with hnone | ⟨_, data, hone⟩
    · rw [hnone] at hsent
      exact absurd hsent List.not_mem_nil
    · rw [hone, List.mem_singleton] at hsent
      cases hsent
      rfl
  generalize hstream : (⟨Robot.imageHeader image.length id ++ image, chunks⟩ : Source UInt8) =
    stream
  have hrest : stream.rest = Robot.imageHeader image.length id ++ image := by rw [← hstream]
  have hdelivery : stream.delivery 16 =
      min (max 1 (chunks 0)) (min 16 (7 + image.length)) := by
    rw [Source.delivery, length_of_arrival hrest, ← hstream]
  rw [← hrest] at hfuel
  by_cases hshort : stream.delivery 16 < 7
  · refine iff_of_false (fun h => ?_) (by omega)
    have hlength := imageListenerThread_unrecognised hrest hfuel hshort h
    dsimp only at hlength
    omega
  · rw [imageListenerThread_recognised hrest hlow hhigh hfuel (by omega)]
    constructor
    · intro h
      have hret := congrArg (fun received => received.ret.length) (Except.ok.inj h)
      dsimp only at hret
      rw [List.length_drop] at hret
      omega
    · intro hchunk
      rw [show stream.delivery 16 - 7 = 0 by omega, List.drop_zero]

def JPEG : List UInt8 := [0xFF, 0xD8, 0xFF, 0xE0, 0x00, 0x10, 0x4A, 0x46, 0x49, 0x46, 0x00, 0x01]

theorem imageTransfer_iff_seven :
    imageListenerThread 20 ⟨Robot.imageHeader 12 1 ++ JPEG, fun _ => 7⟩ = .ok ⟨1, JPEG⟩ ↔
      (7 : Nat) = 7 :=
  imageTransfer_iff (fun _ _ => some JPEG)
    { Robot.create 6000 0 with latestCamera1Frame := [1] } 1 ⟨true, true⟩
    (show Output.image none (Robot.imageHeader 12 1) JPEG ∈ _ from List.mem_singleton.mpr rfl)
    (by decide) (by decide) (fun _ => 7) (by decide)

/-- Header and image in one segment: the first nine bytes of the image are gone. -/
theorem not_forall_imageTransfer :
    ¬ ∀ (imencode : Mat → Nat → Option (List UInt8)) (robot : Robot) (id : Nat)
      (link : ImageLink) (dest : Option SockAddr) (header image : List UInt8),
      .image dest header image ∈ Robot.sendCameraImage imencode robot id link →
      2 ≤ image.length → image.length ≤ 2 ^ 30 → ∀ (chunks : Nat → Nat) (fuel : Nat),
      (header ++ image).length < fuel →
      imageListenerThread fuel ⟨header ++ image, chunks⟩ =
        .ok ⟨(UInt8.ofNat id).toNat, image⟩ := by
  intro h
  have hsent := h (fun _ _ => some JPEG)
    { Robot.create 6000 0 with latestCamera1Frame := [1] } 1 ⟨true, true⟩ none _ JPEG
    (List.mem_singleton.mpr rfl) (by decide) (by decide) (fun _ => 16) 20 (by decide)
  have hlost : imageListenerThread 20 ⟨Robot.imageHeader 12 1 ++ JPEG, fun _ => 16⟩ =
      .ok ⟨1, [0x46, 0x00, 0x01]⟩ := by decide +kernel
  exact absurd (hlost.symm.trans hsent) (by decide)

end Lame.ImageTransfer
