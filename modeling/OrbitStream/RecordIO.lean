/-
OrbitStream/RecordIO.lean

Files of protocol buffer records (`base/recordio.h`).

A record is a magic number of 32 bits, the size of the serialised message and the
size of its compressed form (64 bits each, the second is 0 if the message is not
compressed), and the message.  A file is read back record by record, until a read
comes out short; `read_records` says that this is at the end of the last record
that the file holds completely, wherever the file was cut.
-/
import OrbitStream.Codec
import OrbitStream.Lib.Bytes

namespace Orbit.RecordIO

open Lib

variable {P : Type*} (proto : Proto P) (z : Zlib)

/-- `RecordWriter::kMagicNumber`. -/
def kMagicNumber : Nat := 0x3ed7230a

/-- `WriteProtocolMessage`: append a record to a file. -/
def writeProtocolMessage (useCompression : Bool) (file : List UInt8) (m : P) : List UInt8 :=
  let uncompressedBuffer := proto.serialize m
  let compressedBuffer := if useCompression then z.compress uncompressedBuffer else []
  let file := file ++ toLe 4 kMagicNumber
  let file := file ++ toLe 8 uncompressedBuffer.length
  let file := file ++ toLe 8 compressedBuffer.length
  if useCompression then file ++ compressedBuffer else file ++ uncompressedBuffer

/-- `if (file_->Read(.., n) != n) return false;`, and what follows it: a short read takes
what is left of the file. -/
def read (n : Nat) (file : List UInt8)
    (next : List UInt8 → List UInt8 → Except Fatal (Option P × List UInt8)) :
    Except Fatal (Option P × List UInt8) :=
  if (file.take n).length ≠ n then .ok (none, file.drop n) else next (file.take n) (file.drop n)

/-- `ReadProtocolMessage`, on what is left of a file: the message, if it returns true,
and what is left then. -/
def readProtocolMessage (file : List UInt8) : Except Fatal (Option P × List UInt8) :=
  read 4 file fun magicNumber file =>
  if ofLe magicNumber ≠ kMagicNumber then .ok (none, file)
  else
    read 8 file fun usize file =>
    read 8 file fun csize file =>
    if ofLe csize ≠ 0 then
      read (ofLe csize) file fun compressedBuffer file =>
      match z.uncompress compressedBuffer (ofLe usize) with
      | none => .error .uncompress
      | some buffer => .ok (some (proto.parse buffer), file)
    else
      read (ofLe usize) file fun buffer file => .ok (some (proto.parse buffer), file)

/-- A file written message by message, each with a compression flag of its own. -/
def writeAll (records : List (Bool × P)) : List UInt8 :=
  records.foldl (fun file r => writeProtocolMessage proto z r.1 file r.2) []

/-- The results of the first `n` calls of `ReadProtocolMessage` on a file. -/
def readAll : Nat → List UInt8 → Except Fatal (List (Option P))
  | 0, _ => .ok []
  | n + 1, file => do
    let (m, file) ← readProtocolMessage proto z file
    let ms ← readAll n file
    return m :: ms

/-! ### One record -/

/-- What a record relies on: the libraries keep the message, and the sizes of its
strings are those of a `std::string`. -/
structure Writable (m : P) : Prop where
  parses : proto.Lossless m
  inflates : z.Lossless (proto.serialize m)
  size_lt : (proto.serialize m).length < 2 ^ 64
  compressed_size_lt : (z.compress (proto.serialize m)).length < 2 ^ 64

/-- The bytes behind the sizes. -/
def payload (useCompression : Bool) (m : P) : List UInt8 :=
  if useCompression then z.compress (proto.serialize m) else proto.serialize m

/-- The compressed size of a record. -/
def csize (useCompression : Bool) (m : P) : Nat :=
  if useCompression then (z.compress (proto.serialize m)).length else 0

/-- The bytes of a record. -/
def record (useCompression : Bool) (m : P) : List UInt8 :=
  toLe 4 kMagicNumber ++ (toLe 8 (proto.serialize m).length ++
    (toLe 8 (csize proto z useCompression m) ++ payload proto z useCompression m))

theorem writeProtocolMessage_eq (useCompression : Bool) (file : List UInt8) (m : P) :
    writeProtocolMessage proto z useCompression file m =
      file ++ record proto z useCompression m := by
  cases useCompression
  · simp [writeProtocolMessage, record, csize, payload]
  · simp [writeProtocolMessage, record, csize, payload]

theorem writeAll_eq (records : List (Bool × P)) :
    writeAll proto z records = records.flatMap fun r => record proto z r.1 r.2 := by
  have hgen : ∀ file, records.foldl (fun file r => writeProtocolMessage proto z r.1 file r.2) file
      = file ++ records.flatMap fun r => record proto z r.1 r.2 := by
    induction records with
    | nil => simp
    | cons r records ih =>
      intro file
      rw [List.foldl_cons, ih, writeProtocolMessage_eq, List.flatMap_cons, List.append_assoc]
  rw [writeAll, hgen, List.nil_append]

variable {proto z} {useCompression : Bool} {m : P}

theorem length_record : (record proto z useCompression m).length =
    20 + (payload proto z useCompression m).length := by
  simp [record]
  omega

/-- A read from a file that was cut somewhere. -/
theorem read_take {x y : List UInt8} {n cut : Nat} (hx : x.length = n)
    (next : List UInt8 → List UInt8 → Except Fatal (Option P × List UInt8)) :
    read n ((x ++ y).take cut) next =
      if n ≤ cut then next x (y.take (cut - n)) else .ok (none, []) := by
  rcases Nat.lt_or_ge cut n with hcut | hcut
  · obtain ⟨hshort, hnil⟩ := take_take_short (x := x ++ y) hcut
    rw [read, if_pos hshort, hnil, if_neg (by omega)]
  · obtain ⟨htake, hdrop⟩ := take_take_append (y := y) hx hcut
    rw [read, htake, hdrop, if_neg (by simp [hx]), if_pos hcut]

/-- What is read behind the sizes. -/
theorem read_payload (h : Writable proto z m) (rest : List UInt8) (cut : Nat) :
    (if csize proto z useCompression m ≠ 0 then
      read (csize proto z useCompression m) ((payload proto z useCompression m ++ rest).take cut)
        fun compressedBuffer file =>
        match z.uncompress compressedBuffer (proto.serialize m).length with
        | none => .error .uncompress
        | some buffer => .ok (some (proto.parse buffer), file)
    else
      read (proto.serialize m).length ((payload proto z useCompression m ++ rest).take cut)
        fun buffer file => .ok (some (proto.parse buffer), file)) =
    if (payload proto z useCompression m).length ≤ cut then
      .ok (some m, rest.take (cut - (payload proto z useCompression m).length))
    else .ok (none, []) := by
  obtain ⟨hne, hinflate⟩ := h.inflates
  -- a compressed size of zero means that the message is not compressed
  cases useCompression
  · have hcsize : csize proto z false m = 0 := rfl
    have hpayload : payload proto z false m = proto.serialize m := rfl
    rw [hcsize, if_neg (by simp), hpayload, read_take rfl, h.parses]
  · have hcsize : csize proto z true m = (payload proto z true m).length := rfl
    have hpayload : payload proto z true m = z.compress (proto.serialize m) := rfl
    have hpos : (payload proto z true m).length ≠ 0 := by
      rw [hpayload]
      exact Nat.ne_of_gt (List.length_pos_iff.mpr hne)
    rw [hcsize, if_pos hpos, read_take rfl]
    simp only [hpayload, hinflate]
    rw [h.parses]

/-- A call on a file that was cut somewhere: if the record in front is complete, it is
returned, and the next call starts behind it; else nothing is left to read. -/
theorem read_cut (h : Writable proto z m) (useCompression : Bool) (rest : List UInt8) (cut : Nat) :
    readProtocolMessage proto z ((record proto z useCompression m ++ rest).take cut) =
      if (record proto z useCompression m).length ≤ cut then
        .ok (some m, rest.take (cut - (record proto z useCompression m).length))
      else .ok (none, []) := by
  have hmagic : ofLe (toLe 4 kMagicNumber) = kMagicNumber := ofLe_toLe_of_lt (by decide)
  have hu : ofLe (toLe 8 (proto.serialize m).length) = (proto.serialize m).length :=
    ofLe_toLe_of_lt h.size_lt
  have hc : ofLe (toLe 8 (csize proto z useCompression m)) = csize proto z useCompression m := by
    apply ofLe_toLe_of_lt
    cases useCompression
    · show 0 < 256 ^ 8
      omega
    · exact h.compressed_size_lt
  rw [length_record]
  simp only [record, readProtocolMessage, List.append_assoc, read_take (length_toLe _ _), hmagic,
    hu, hc, read_payload h, ne_eq, not_true_eq_false, if_false]
  rcases Nat.lt_or_ge cut (20 + (payload proto z useCompression m).length) with hcut | hcut
  · -- one of the reads is short
    rw [if_neg (Nat.not_le.mpr hcut)]
    split
    · split
      · split
        · rw [if_neg (by omega)]
        · rfl
      · rfl
    · rfl
  · rw [if_pos (by omega), if_pos (by omega), if_pos (by omega), if_pos (by omega), if_pos hcut]
    simp only [Nat.sub_sub, Nat.reduceAdd]

/-- At the end of a file there is no message. -/
theorem read_nil : readProtocolMessage proto z [] = .ok (none, []) := by
  simp [readProtocolMessage, read]

theorem readAll_nil (k : Nat) : readAll proto z k [] = .ok (List.replicate k none) := by
  induction k with
  | zero => rfl
  | succ k ih =>
    rw [readAll, read_nil]
    show (do let ms ← readAll proto z k []; return none :: ms) = _
    rw [ih]
    rfl

/-! ### Files -/

/-- The number of records that are complete in the first `cut` bytes. -/
def complete (proto : Proto P) (z : Zlib) : List (Bool × P) → Nat → Nat
  | [], _ => 0
  | r :: records, cut =>
    if (record proto z r.1 r.2).length ≤ cut then
      complete proto z records (cut - (record proto z r.1 r.2).length) + 1
    else 0

/-- The records that are complete are those that end before the cut. -/
theorem complete_spec (proto : Proto P) (z : Zlib) (records : List (Bool × P)) (cut : Nat) :
    complete proto z records cut ≤ records.length ∧
      ∀ n ≤ records.length, n ≤ complete proto z records cut ↔
        (writeAll proto z (records.take n)).length ≤ cut := by
  induction records generalizing cut with
  | nil =>
    refine ⟨Nat.le_refl _, ?_⟩
    intro n hn
    obtain rfl : n = 0 := by simpa using hn
    simp [complete, writeAll]
  -- the first record is complete, or the cut is inside of it
  | cons r records ih =>
    obtain ⟨hle, hspec⟩ := ih (cut - (record proto z r.1 r.2).length)
    rw [complete]
    split
    · rename_i hcut
      refine ⟨Nat.succ_le_succ hle, ?_⟩
      rintro (- | n) hn
      · simp [writeAll]
      · have hn' : n ≤ records.length := Nat.le_of_succ_le_succ hn
        have hiff := hspec n hn'
        rw [writeAll_eq] at hiff ⊢
        rw [List.take_succ_cons, List.flatMap_cons, List.length_append]
        omega
    · rename_i hcut
      refine ⟨Nat.zero_le _, ?_⟩
      rintro (- | n) hn
      · simp [writeAll]
      · rw [writeAll_eq, List.take_succ_cons, List.flatMap_cons, List.length_append]
        omega

/-- The calls on a file that was cut somewhere. -/
theorem readAll_cut {records : List (Bool × P)} (h : ∀ r ∈ records, Writable proto z r.2)
    (cut k : Nat) :
    readAll proto z (complete proto z records cut + k) ((writeAll proto z records).take cut) =
      .ok (((records.take (complete proto z records cut)).map fun r => some r.2) ++
        List.replicate k none) := by
  rw [writeAll_eq]
  induction records generalizing cut with
  | nil =>
    simp only [complete, List.flatMap_nil, List.take_nil, Nat.zero_add, readAll_nil]
    rfl
  | cons r records ih =>
    have hr := h r List.mem_cons_self
    have hcut := read_cut hr r.1
      (records.flatMap fun r => record proto z r.1 r.2) cut
    rw [complete, List.flatMap_cons]
    split
    · rename_i hle
      rw [if_pos hle] at hcut
      have hrest := ih (fun r' hr' => h r' (List.mem_cons_of_mem r hr'))
        (cut - (record proto z r.1 r.2).length)
      rw [Nat.add_right_comm, readAll, hcut]
      show (do let ms ← readAll proto z _ _; return some r.2 :: ms) = _
      rw [hrest]
      rfl
    · -- the record is cut: this call and all later ones find nothing
      rename_i hle
      rw [if_neg hle] at hcut
      rcases k with - | k
      · rfl
      · rw [Nat.zero_add, readAll, hcut]
        show (do let ms ← readAll proto z k []; return none :: ms) = _
        rw [readAll_nil]
        rfl

/-- **Reading records.**  A file gives back the messages that were written to it, in
order, and then no more.  Of a file that was cut somewhere, these are the messages
whose records end before the cut. -/
theorem read_records (proto : Proto P) (z : Zlib) (records : List (Bool × P))
    (h : ∀ r ∈ records, Writable proto z r.2) :
    (∀ k, readAll proto z (records.length + k) (writeAll proto z records) =
      .ok ((records.map fun r => some r.2) ++ List.replicate k none)) ∧
    ∀ cut, ∃ n ≤ records.length,
      (∀ j ≤ records.length, j ≤ n ↔ (writeAll proto z (records.take j)).length ≤ cut) ∧
      ∀ k, readAll proto z (n + k) ((writeAll proto z records).take cut) =
        .ok (((records.take n).map fun r => some r.2) ++ List.replicate k none) := by
  refine ⟨?_, ?_⟩
  · intro k
    have hspec := complete_spec proto z records (writeAll proto z records).length
    have hall : complete proto z records (writeAll proto z records).length = records.length := by
      apply Nat.le_antisymm hspec.1
      apply (hspec.2 _ (Nat.le_refl _)).mpr
      apply Nat.le_of_eq
      rw [List.take_length]
    have hread := readAll_cut h (writeAll proto z records).length k
    rw [hall, List.take_length, List.take_length] at hread
    exact hread
  · intro cut
    have hspec := complete_spec proto z records cut
    exact ⟨_, hspec.1, hspec.2, readAll_cut h cut⟩

/-- A message of one boolean field; the default is not written. -/
def boolProto : Proto Bool where
  serialize b := if b then [8, 1] else []
  parse s := s == [8, 1]

/-- zlib on the strings that such messages give. -/
def boolZlib : Zlib where
  compress s :=
    if s = [] then [120, 156, 3, 0, 0, 0, 0, 1] else [120, 156, 227, 96, 4, 0, 0, 19, 0, 10]
  uncompress s _ :=
    if s = [120, 156, 3, 0, 0, 0, 0, 1] then some []
    else if s = [120, 156, 227, 96, 4, 0, 0, 19, 0, 10] then some [8, 1]
    else none

theorem read_records_bool :
    (∀ r ∈ [(true, true), (false, false), (true, false)], Writable boolProto boolZlib r.2) ∧
      readAll boolProto boolZlib 4
        (writeAll boolProto boolZlib [(true, true), (false, false), (true, false)]) =
          .ok [some true, some false, some false, none] := by
  have hwritable : ∀ m, Writable boolProto boolZlib m := by
    intro m
    cases m
    · exact ⟨rfl, by decide, by decide, by decide⟩
    · exact ⟨rfl, by decide, by decide, by decide⟩
  have h := fun r (_ : r ∈ [(true, true), (false, false), (true, false)]) => hwritable r.2
  exact ⟨h, (read_records boolProto boolZlib _ h).1 1⟩

end Orbit.RecordIO
