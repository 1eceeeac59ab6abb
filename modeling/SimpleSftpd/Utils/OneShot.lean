import SimpleSftpd.Cxx.Doubles
import SimpleSftpd.Cxx.Strings

/-! compression.cpp: `Compression`, which has a library compress or decompress a whole vector at once. -/

namespace SimpleSftpd

open Cxx

/-- A compressing library: the stream it makes of some bytes, and the bytes it finds in a stream. -/
structure Codec where
  encode : Str → Str
  decode : Str → Option Str

def unsignedInt (n : ℕ) : ℕ := n % 2 ^ 32

def handed (data : Str) : Str := data.take (unsignedInt data.length)

structure Inflated where
  ended : Bool
  output : Str
  rest : Option Str

def inflateOnce (rest : Option Str) (room : ℕ) : Inflated := match rest with
  | none => ⟨false, [], none⟩
  | some bytes =>
    if bytes.length ≤ room then ⟨true, bytes, some []⟩ else ⟨false, bytes.take room, some (bytes.drop room)⟩

namespace Codec

variable (g : Codec)

def compressOnce (input : Str) (room : ℕ) : Option Str :=
  if (g.encode input).length ≤ room then some (g.encode input) else none

def decompressOnce (input : Str) (room : ℕ) : Option Str :=
  (g.decode input).filter fun bytes => bytes.length ≤ room

def compressGzip (data : Str) : Str :=
  (g.compressOnce (handed data) (unsignedInt (estimate data.length 12))).getD data

def decompressGzip (data : Str) : Str :=
  let size := data.length * 4
  let first := inflateOnce (g.decode (handed data)) (unsignedInt size)
  if first.ended then first.output
  else
    -- the same stream goes on behind what it has written
    let size := size * 2
    let second := inflateOnce first.rest (unsignedInt (size - first.output.length))
    if second.ended then first.output ++ second.output else data

def compressBzip2 (outOfRange : ℕ → ℕ) (data : Str) : Str :=
  let size := estimate data.length 600
  let dest_len := unsignedInt (if size < 2 ^ 32 then size else outOfRange size)
  (g.compressOnce (handed data) dest_len).getD data

def decompressBzip2 (data : Str) : Str :=
  match g.decompressOnce (handed data) (unsignedInt (data.length * 4)) with
  | some output => output
  | none => (g.decompressOnce (handed data) (unsignedInt (data.length * 8))).getD data

end Codec

inductive CompressionType
  | NONE | GZIP | BZIP2
  deriving DecidableEq

structure Compression where
  enableCompression : Bool
  haveBzip2 : Bool
  zlib : Codec
  bzlib : Codec
  outOfRange : ℕ → ℕ

namespace Compression

variable (b : Compression)

def isSupported : CompressionType → Bool
  | .GZIP => b.enableCompression
  | .BZIP2 => b.enableCompression && b.haveBzip2
  | .NONE => true

def compress (data : Str) : CompressionType → Str
  | .GZIP => if b.isSupported .GZIP then b.zlib.compressGzip data else data
  | .BZIP2 => if b.isSupported .BZIP2 then b.bzlib.compressBzip2 b.outOfRange data else data
  | .NONE => data

def decompress (data : Str) : CompressionType → Str
  | .GZIP => if b.isSupported .GZIP then b.zlib.decompressGzip data else data
  | .BZIP2 => if b.isSupported .BZIP2 then b.bzlib.decompressBzip2 data else data
  | .NONE => data

end Compression

namespace Codec

variable {g : Codec} {room : ℕ} {capacity : ℕ → ℕ} {x : Str}

def Inverse (g : Codec) : Prop := ∀ x, g.decode (g.encode x) = some x

/-- What comes back of a vector if its stream may take `room` bytes, and a vector of `n` bytes is
decompressed to no more than `capacity n`: a vector whose stream does not fit is left as it is, and then
taken for a stream. -/
def Keeps (g : Codec) (room : ℕ) (capacity : ℕ → ℕ) (x : Str) : Prop :=
  if (g.encode (handed x)).length ≤ room then
    x.length < 2 ^ 32 ∧ (x.length ≤ capacity (g.encode x).length ∨ g.encode x = x)
  else ∀ y, g.decode (handed x) = some y → y.length ≤ capacity x.length → y = x

def expand (g : Codec) (capacity : ℕ → ℕ) (data : Str) : Str :=
  ((g.decode (handed data)).filter fun y => y.length ≤ capacity data.length).getD data

lemma handed_of_lt (h : x.length < 2 ^ 32) : handed x = x := by
  rw [handed, unsignedInt, Nat.mod_eq_of_lt h, List.take_length]

lemma length_handed_lt (x : Str) : (handed x).length < 2 ^ 32 := by
  rw [handed, List.length_take, unsignedInt]
  omega

lemma filter_getD_eq {p : Str → Prop} [DecidablePred p] (y d : Str) :
    ((some y).filter fun y => p y).getD d = if p y then y else d := by
  by_cases h : p y <;> simp [Option.filter, h]

lemma expand_iff (hg : g.Inverse) (hroom : room < 2 ^ 32) (x : Str) :
    g.expand capacity ((g.compressOnce (handed x) room).getD x) = x ↔ g.Keeps room capacity x := by
  unfold compressOnce Keeps
  by_cases hfits : (g.encode (handed x)).length ≤ room
  · rw [if_pos hfits, if_pos hfits, Option.getD_some, expand, handed_of_lt (hfits.trans_lt hroom), hg,
      filter_getD_eq]
    by_cases hx : x.length < 2 ^ 32
    · rw [handed_of_lt hx, and_iff_right hx]
      split_ifs with hcapacity
      · exact iff_of_true rfl (.inl hcapacity)
      · exact (or_iff_right hcapacity).symm
    · refine iff_of_false (fun h => hx ?_) fun h => hx h.1
      rw [← h]
      split_ifs
      · exact length_handed_lt x
      · exact hfits.trans_lt hroom
  · rw [if_neg hfits, if_neg hfits, Option.getD_none, expand]
    cases g.decode (handed x) with
    | none => exact iff_of_true rfl fun _ h => by cases h
    | some y =>
      rw [filter_getD_eq]
      simp only [Option.some.injEq, forall_eq']
      split_ifs with hcapacity
      · exact ⟨fun h _ => h, fun h => h hcapacity⟩
      · exact iff_of_true rfl fun h => absurd h hcapacity

lemma inflateOnce_of_le {y : Str} (h : y.length ≤ room) : inflateOnce (some y) room = ⟨true, y, some []⟩ :=
  if_pos h

lemma inflateOnce_of_lt {y : Str} (h : room < y.length) :
    inflateOnce (some y) room = ⟨false, y.take room, some (y.drop room)⟩ := if_neg (Nat.not_le.2 h)

lemma decompressGzip_eq (data : Str) :
    g.decompressGzip data = g.expand (fun n => 2 * unsignedInt (n * 4)) data := by
  unfold decompressGzip expand
  cases g.decode (handed data) with
  | none => rfl
  | some y =>
    rw [filter_getD_eq]
    have hroom : unsignedInt (data.length * 4 * 2 - unsignedInt (data.length * 4)) = unsignedInt
        (data.length * 4) := by
      unfold unsignedInt
      omega
    by_cases hfirst : y.length ≤ unsignedInt (data.length * 4)
    · simp only [inflateOnce_of_le hfirst]
      exact (if_pos (by omega)).symm
    · have htake : (y.take (unsignedInt (data.length * 4))).length = unsignedInt (data.length * 4) := by
        rw [List.length_take, Nat.min_eq_left (by omega)]
      simp only [inflateOnce_of_lt (Nat.not_le.1 hfirst), htake, hroom]
      by_cases hsecond : y.length ≤ 2 * unsignedInt (data.length * 4)
      · rw [inflateOnce_of_le (by rw [List.length_drop]; omega), if_pos hsecond]
        exact List.take_append_drop _ y
      · rw [inflateOnce_of_lt (by rw [List.length_drop]; omega), if_neg hsecond]
        rfl

lemma decompressBzip2_eq (data : Str) :
    g.decompressBzip2 data = g.expand (fun n => max (unsignedInt (n * 4)) (unsignedInt (n * 8))) data := by
  unfold decompressBzip2 decompressOnce expand
  cases g.decode (handed data) with
  | none => rfl
  | some y =>
    rw [filter_getD_eq, filter_getD_eq]
    by_cases hfirst : y.length ≤ unsignedInt (data.length * 4)
    · simp [Option.filter, hfirst]
    · simp [Option.filter, hfirst]

end Codec

namespace Compression

variable {b : Compression}

def room (b : Compression) (n : ℕ) : CompressionType → ℕ
  | .BZIP2 => unsignedInt (if estimate n 600 < 2 ^ 32 then estimate n 600 else b.outOfRange (estimate n 600))
  | _ => unsignedInt (estimate n 12)

def capacity (n : ℕ) : CompressionType → ℕ
  | .BZIP2 => max (unsignedInt (n * 4)) (unsignedInt (n * 8))
  | _ => 2 * unsignedInt (n * 4)

def codec (b : Compression) : CompressionType → Codec
  | .BZIP2 => b.bzlib
  | _ => b.zlib

lemma unsignedInt_lt (n : ℕ) : unsignedInt n < 2 ^ 32 := Nat.mod_lt _ (Nat.two_pow_pos 32)

end Compression

theorem decompress_compress (b : Compression) (hzlib : b.zlib.Inverse) (hbzlib : b.bzlib.Inverse) (x : Str)
    (t : CompressionType) :
    b.decompress (b.compress x t) t = x ↔
      (t ≠ .NONE → b.isSupported t = true →
        (b.codec t).Keeps (b.room x.length t) (Compression.capacity · t) x) := by
  cases t with
  | NONE => exact iff_of_true rfl fun h => absurd rfl h
  | GZIP =>
    simp only [Compression.compress, Compression.decompress]
    by_cases hb : b.isSupported .GZIP = true
    · rw [if_pos hb, if_pos hb, Codec.decompressGzip_eq, Codec.compressGzip,
        Codec.expand_iff hzlib (Compression.unsignedInt_lt _)]
      exact ⟨fun h _ _ => h, fun h => h (by decide) hb⟩
    · rw [if_neg hb, if_neg hb]
      exact iff_of_true rfl fun _ h => absurd h hb
  | BZIP2 =>
    simp only [Compression.compress, Compression.decompress]
    by_cases hb : b.isSupported .BZIP2 = true
    · rw [if_pos hb, if_pos hb, Codec.decompressBzip2_eq, Codec.compressBzip2,
        Codec.expand_iff hbzlib (Compression.unsignedInt_lt _)]
      exact ⟨fun h _ _ => h, fun h => h (by decide) hb⟩
    · rw [if_neg hb, if_neg hb]
      exact iff_of_true rfl fun _ h => absurd h hb

namespace Codec

variable {g : Codec} {x : Str}

/-- What is known of gzip: besides, no stream is shorter than 18 bytes, and long runs of a byte shrink to
less than an eighth. -/
structure Assumed (g : Codec) : Prop where
  inverse : g.Inverse
  overhead : ∀ x, 18 ≤ (g.encode x).length
  runs : ∃ least, ∀ n ≥ least, ∀ b, 8 * (g.encode (List.replicate n b)).length < n

lemma lost_of_ratio (hx : x.length < 2 ^ 31) (h : 8 * (g.encode x).length < x.length) :
    ¬g.Keeps (unsignedInt (estimate x.length 12)) (Compression.capacity · .GZIP) x := by
  have hroom : unsignedInt (estimate x.length 12) = 11 * x.length / 10 + 12 := by
    rw [estimate_eq (by omega) (by decide), unsignedInt]
    omega
  unfold Keeps
  rw [hroom, handed_of_lt (by omega), if_pos (by omega)]
  rintro ⟨_, hcapacity | hsame⟩
  · unfold Compression.capacity unsignedInt at hcapacity
    dsimp only at hcapacity
    omega
  · rw [hsame] at h
    omega

theorem long_runs_are_lost (b : Compression) (hb : b.isSupported .GZIP = true) (hg : b.zlib.Assumed) :
    ∃ least, ∀ n ≥ least, n < 2 ^ 31 →
    ∀ c, b.decompress (b.compress (List.replicate n c) .GZIP) .GZIP ≠ List.replicate n c := by
  obtain ⟨least, hleast⟩ := hg.runs
  refine ⟨least, fun n hn hsmall c => ?_⟩
  have hratio := hleast n hn c
  simp only [Compression.compress, Compression.decompress, if_pos hb]
  rw [decompressGzip_eq, compressGzip, Ne, expand_iff hg.inverse (Compression.unsignedInt_lt _)]
  exact lost_of_ratio (by rwa [List.length_replicate]) (by rwa [List.length_replicate])

def runOf (x : Str) : Option Byte := x.head?.filter fun b => x = List.replicate x.length b

def runLength : Codec where
  encode x := List.replicate 18 0 ++ match runOf x with
    | some b => 1 :: b :: UInt8.ofNat (x.length % 16) :: List.replicate (x.length / 16) 0
    | none => 0 :: x
  decode d :=
    if d.take 18 = List.replicate 18 0 then match d.drop 18 with
      | 1 :: b :: r :: rest => some (List.replicate (16 * rest.length + r.toNat) b)
      | 0 :: x => some x
      | _ => none
    else none

def extend (g : Codec) (x stream : Str) : Codec where
  encode y := if y = x then stream else g.encode y
  decode d := if d = stream then some x else g.decode d

lemma runOf_eq_some {b : Byte} (h : runOf x = some b) : x = List.replicate x.length b := by
  obtain ⟨_, hb⟩ := Option.filter_eq_some_iff.1 h
  exact of_decide_eq_true hb

lemma runOf_replicate {n : ℕ} (hn : 0 < n) (b : Byte) : runOf (List.replicate n b) = some b := by
  obtain ⟨m, rfl⟩ := Nat.exists_eq_succ_of_ne_zero hn.ne'
  simp [runOf, List.replicate_succ, Option.filter]

lemma runLength_inverse : runLength.Inverse := by
  intro x
  unfold runLength
  dsimp only
  cases hx : runOf x with
  | none => simp
  | some b =>
    have hcount : 16 * (x.length / 16) + x.length % 16 % 256 = x.length := by omega
    simp [hcount, (runOf_eq_some hx).symm]

lemma extend_inverse {stream : Str} (hg : g.Inverse) (hstream : ∀ y, g.encode y ≠ stream) :
    (g.extend x stream).Inverse := by
  intro y
  unfold extend
  dsimp only
  by_cases hy : y = x
  · simp [hy]
  · rw [if_neg hy, if_neg (hstream y), hg]

lemma runLength_length (x : Str) : 18 ≤ (runLength.encode x).length := by
  unfold runLength
  simp

lemma runLength_run {n : ℕ} (hn : 400 ≤ n) (b : Byte) :
    8 * (runLength.encode (List.replicate n b)).length < n := by
  unfold runLength
  dsimp only
  rw [runOf_replicate (by omega)]
  simp only [List.length_append, List.length_cons, List.length_replicate]
  omega

def sampleZlib : Codec :=
  (runLength.extend (List.replicate 400 0) [31, 139, 8, 0, 0, 0, 0, 0, 0, 3, 99, 96, 24, 5, 131, 9, 0, 0, 12,
    13, 34, 70, 144, 1, 0, 0]).extend
    (List.replicate 100 97) [31, 139, 8, 0, 0, 0, 0, 0, 0, 3, 75, 76, 164, 61, 0, 0, 100, 122, 112,
      175, 100, 0, 0, 0]

def sampleBzlib : Codec :=
  (runLength.extend (List.replicate 400 0) [66, 90, 104, 57, 49, 65, 89, 38, 83, 89, 48, 176, 68, 98, 0, 0, 0,
    192, 64, 192, 0, 0, 2, 0, 8, 32, 0,
    33, 38, 65, 152, 168, 14, 46, 228, 138, 112, 161, 32, 97, 96, 136, 196]).extend
    (List.replicate 100 97) [66, 90, 104, 57, 49, 65, 89, 38, 83, 89, 138, 87, 33, 189, 0, 0, 2, 1, 0, 96, 0,
      32, 0, 33, 0, 130, 11, 23, 114, 69,
      56, 80, 144, 138, 87, 33, 189]

lemma extend_assumed {stream : Str} (hg : g.Assumed) (hstream : ∀ y, g.encode y ≠ stream)
    (hlength : 18 ≤ stream.length) :
    (g.extend x stream).Assumed := by
  refine ⟨extend_inverse hg.inverse hstream, fun y => ?_, ?_⟩
  · unfold extend
    dsimp only
    split_ifs
    · exact hlength
    · exact hg.overhead y
  · obtain ⟨least, hleast⟩ := hg.runs
    refine ⟨least + x.length + 1, fun n hn b => ?_⟩
    have hother : List.replicate n b ≠ x := by
      rintro rfl
      rw [List.length_replicate] at hn
      omega
    unfold extend
    dsimp only
    rw [if_neg hother]
    exact hleast n (by omega) b

lemma runLength_assumed : runLength.Assumed := ⟨runLength_inverse, runLength_length, 400, fun _ => runLength_run⟩

lemma runLength_ne {c : Byte} (hc : c ≠ 0) (rest y : Str) : runLength.encode y ≠ c :: rest := by
  intro h
  have hhead := congrArg List.head? h
  unfold runLength at hhead
  simp only [List.replicate_succ, List.cons_append, List.head?_cons, Option.some.injEq] at hhead
  exact hc hhead.symm

lemma extend_ne {stream stream' : Str} (hg : ∀ y, g.encode y ≠ stream') (hne : stream ≠ stream') (y : Str) :
    (g.extend x stream).encode y ≠ stream' := by
  unfold extend
  dsimp only
  split_ifs
  · exact hne
  · exact hg y

lemma sampleZlib_assumed : sampleZlib.Assumed :=
  extend_assumed (extend_assumed runLength_assumed (runLength_ne (by decide) _) (by decide))
    (extend_ne (runLength_ne (by decide) _) (by decide)) (by decide)

lemma sampleBzlib_assumed : sampleBzlib.Assumed :=
  extend_assumed (extend_assumed runLength_assumed (runLength_ne (by decide) _) (by decide))
    (extend_ne (runLength_ne (by decide) _) (by decide)) (by decide)

end Codec

def sampleCompression : Compression := ⟨true, true, Codec.sampleZlib, Codec.sampleBzlib, fun _ => 0⟩

theorem decompress_compress_run :
    sampleCompression.decompress (sampleCompression.compress (List.replicate 100 97) .GZIP) .GZIP =
    List.replicate 100 97 := by
  apply (decompress_compress sampleCompression Codec.sampleZlib_assumed.inverse
    Codec.sampleBzlib_assumed.inverse _ .GZIP).2
  intro _ _
  unfold Codec.Keeps
  rw [if_pos (by decide +kernel)]
  exact ⟨by decide, .inl (by decide +kernel)⟩

theorem decompress_does_not_undo_compress : sampleCompression.zlib.Assumed ∧ sampleCompression.bzlib.Inverse ∧
    sampleCompression.decompress (sampleCompression.compress (List.replicate 400 0) .GZIP) .GZIP ≠
      List.replicate 400 0 ∧
    sampleCompression.decompress (sampleCompression.compress (List.replicate 400 0) .BZIP2) .BZIP2 ≠
      List.replicate 400 0 :=
  ⟨Codec.sampleZlib_assumed, Codec.sampleBzlib_assumed.inverse, by decide +kernel, by decide +kernel⟩

end SimpleSftpd
