/-
OrbitStream/SSTable.lean

Persistent key-value tables (`base/sstable/sstable_builder.cc`).

The builder collects the items of each hash value in a chain, and writes one block
for each hash value in ascending order: the size of the serialised block, the size of
its compressed form (0 if blocks are not compressed), and the block.  Behind the
blocks come the metadata, which give the offset of the block of each hash value, and
their two sizes.  The reader loads the metadata from the end of the file, and looks a
key up in the block of its hash value.

`lookup_build` is the round trip: whatever the hash function, a key gives back the
values added under it, in order.  Reader and builder have a mode each.  `Open` refuses a
compressed table in the plain mode, but not a plain one in the mode for compressed tables
(`opens_safely_iff`).
-/
import Mathlib.Data.Finset.Card
import OrbitStream.Codec
import OrbitStream.Lib.Bytes

namespace Orbit.SSTable

open Lib

/-! ### The builder -/

/-- `SSTableDataItem`. -/
structure DataItem where
  key : List UInt8
  data : List UInt8
  deriving DecidableEq, Repr

/-- `SSTableBlock::Algorithm`. -/
inductive Algorithm
  | flatString
  | zippyCompression
  | undefined
  deriving DecidableEq, Repr

/-- `SSTableBlock`. -/
structure Block where
  algorithm : Algorithm
  data : List DataItem
  deriving DecidableEq, Repr

/-- `SSTableIndex`. -/
structure Index where
  keyRange : Int
  offset : Int
  deriving DecidableEq, Repr

/-- What a table depends on: the hash function, the two kinds of messages, zlib, and
whether compression is used. -/
structure Config where
  hashFunc : List UInt8 → Int
  blockProto : Proto Block
  metadataProto : Proto (List Index)
  zlib : Zlib
  useCompression : Bool

/-- `holder_`: the items of each hash value. -/
abbrev Holder := Std.TreeMap Int (List DataItem)

variable (c : Config)

/-- `Add`. -/
def add (holder : Holder) (kv : List UInt8 × List UInt8) : Holder :=
  let item : DataItem := { key := kv.1, data := kv.2 }
  let hashKey := c.hashFunc kv.1
  match holder[hashKey]? with
  | some keyChain => holder.insert hashKey (keyChain ++ [item])
  | none => holder.insert hashKey [item]

/-- The compressed form of a serialised message. -/
def compressedBuffer (out : List UInt8) : List UInt8 :=
  if c.useCompression then c.zlib.compress out else []

/-- `WriteRecord` of a serialised message, in the form that the table uses. -/
def writeRecord (file out : List UInt8) : List UInt8 :=
  if c.useCompression then file ++ compressedBuffer c out else file ++ out

/-- `WriteInteger` of the size of a string. -/
def writeSize (file out : List UInt8) : List UInt8 := file ++ toLe 4 out.length

/-- What an `int` keeps of a size or an offset. -/
def toInt (n : Nat) : Int := (Int32.ofNat n).toInt

/-- The state of the loop of `Build`. -/
structure BuildState where
  file : List UInt8 := []
  metadata : List Index := []
  fileOffset : Int := 0

/-- The body of the loop of `Build`, for one chain. -/
def buildChain (s : BuildState) (entry : Int × List DataItem) : BuildState :=
  let block : Block := { algorithm := .flatString, data := entry.2 }
  let out := c.blockProto.serialize block
  let file := writeSize s.file out
  let file := writeSize file (compressedBuffer c out)
  let file := writeRecord c file out
  { file := file
    metadata := s.metadata ++ [{ keyRange := entry.1, offset := s.fileOffset }]
    fileOffset := toInt file.length }

/-- `Build`: the contents of the file. -/
def build (holder : Holder) : List UInt8 :=
  let s := holder.toList.foldl (buildChain c) {}
  let out := c.metadataProto.serialize s.metadata
  let file := writeRecord c s.file out
  let file := writeSize file out
  writeSize file (compressedBuffer c out)

/-! ### The reader -/

/-- What a call of the reader may end in besides its result: zlib reports an error, or
a read is not inside of the file, which leaves the stream in a failed state. -/
inductive Error
  | fatal
  | badRead
  deriving DecidableEq, Repr

/-- `seekg` and `read`. -/
def readAt (file : List UInt8) (offset size : Int) : Except Error (List UInt8) :=
  if 0 ≤ offset ∧ 0 ≤ size ∧ offset + size ≤ file.length then
    .ok ((file.drop offset.toNat).take size.toNat)
  else .error .badRead

/-- A read of an `int`. -/
def readInt (file : List UInt8) (offset : Int) : Except Error Int := do
  let bytes ← readAt file offset 4
  return ofLeInt bytes

/-- `Uncompress`. -/
def uncompress (source : List UInt8) (outputSize : Int) : Except Error (List UInt8) :=
  match c.zlib.uncompress source outputSize.toNat with
  | some output => .ok output
  | none => .error .fatal

/-- An open `SimpleSSTable`. -/
structure Table where
  file : List UInt8
  offsetMap : Std.TreeMap Int Int

/-- `CreateMap`. -/
def createMap (metadata : List Index) : Std.TreeMap Int Int :=
  .ofList (metadata.map fun index => (index.keyRange, index.offset))

/-- The sizes that `Open` reads from the end of the file.  A read that fails leaves the
variable at 0, and so does the one behind it. -/
def readSizes (file : List UInt8) (fileSize : Int) : Int × Int :=
  match readInt file (fileSize - 8) with
  | .error _ => (0, 0)
  | .ok metadataSize =>
    match readInt file (fileSize - 4) with
    | .error _ => (metadataSize, 0)
    | .ok metadataCompressedSize => (metadataSize, metadataCompressedSize)

/-- `Open`; `none` if it returns false. -/
def openTable (file : List UInt8) : Except Error (Option Table) := do
  let fileSize := toInt file.length
  let (metadataSize, metadataCompressedSize) := readSizes file fileSize
  if metadataCompressedSize ≠ 0 ∧ ¬ c.useCompression then return none
  if metadataSize ≤ 0 ∨ metadataSize > fileSize then return none
  let metadataSer ←
    if ¬ c.useCompression then readAt file (fileSize - metadataSize - 8) metadataSize
    else do
      let compressed ← readAt file (fileSize - metadataCompressedSize - 8) metadataCompressedSize
      uncompress c compressed metadataSize
  return some { file := file, offsetMap := createMap (c.metadataProto.parse metadataSer) }

/-- `FindOffset`. -/
def findOffset (t : Table) (keyHash : Int) : Int := (t.offsetMap[keyHash]?).getD (-1)

/-- `Lookup`. -/
def lookup (t : Table) (key : List UInt8) : Except Error (List (List UInt8)) := do
  let offset := findOffset t (c.hashFunc key)
  if offset = -1 then return []
  let dataSize ← readInt t.file offset
  let dataCompressedSize ← readInt t.file (offset + 4)
  if ¬ c.useCompression ∧ dataCompressedSize ≠ 0 then return []
  let dataSer ←
    if c.useCompression then do
      let compressed ← readAt t.file (offset + 8) dataCompressedSize
      uncompress c compressed dataSize
    else readAt t.file (offset + 8) dataSize
  let block := c.blockProto.parse dataSer
  return (block.data.filter fun item => item.key = key).map DataItem.data

/-- A file that is built from a list of calls of `Add`. -/
def holder (adds : List (List UInt8 × List UInt8)) : Holder := adds.foldl (add c) ∅

/-! ### Chains -/

/-- The items added under keys of a hash value, in order. -/
def chain (adds : List (List UInt8 × List UInt8)) (h : Int) : List DataItem :=
  (adds.filter fun kv => c.hashFunc kv.1 = h).map fun kv => { key := kv.1, data := kv.2 }

/-- The holder has the chain of each hash value that occurs. -/
theorem holder_getElem? (adds : List (List UInt8 × List UInt8)) (h : Int) :
    (holder c adds)[h]? = if chain c adds h = [] then none else some (chain c adds h) := by
  induction adds using List.reverseRecOn with
  | nil => simp [holder, chain]
  | append_singleton adds kv ih =>
    have hfold : holder c (adds ++ [kv]) = add c (holder c adds) kv := by
      simp [holder, List.foldl_append]
    have hchain : chain c (adds ++ [kv]) h =
        chain c adds h ++ if c.hashFunc kv.1 = h then [⟨kv.1, kv.2⟩] else [] := by
      rw [chain, chain, List.filter_append, List.map_append]
      by_cases hkv : c.hashFunc kv.1 = h
      · simp [hkv]
      · simp [hkv]
    rw [hfold, hchain, add]
    by_cases hkv : c.hashFunc kv.1 = h
    · subst hkv
      rw [if_pos rfl, if_neg (by simp), ih]
      rcases hnil : chain c adds (c.hashFunc kv.1) with - | ⟨item, items⟩
      · simp
      · simp
    · have hother : ∀ v, ((holder c adds).insert (c.hashFunc kv.1) v)[h]? = (holder c adds)[h]? := by
        intro v
        rw [Std.TreeMap.getElem?_insert, if_neg]
        simpa using hkv
      rw [if_neg hkv, List.append_nil, ← ih]
      split
      · exact hother _
      · exact hother _

/-! ### Blocks in the file -/

/-- The block of a chain. -/
def block (entry : Int × List DataItem) : Block :=
  { algorithm := .flatString, data := entry.2 }

/-- What `Build` writes for a serialised message besides its sizes. -/
def stored (out : List UInt8) : List UInt8 :=
  if c.useCompression then c.zlib.compress out else out

/-- What `Build` writes for a chain. -/
def blockBytes (entry : Int × List DataItem) : List UInt8 :=
  let out := c.blockProto.serialize (block entry)
  toLe 4 out.length ++ (toLe 4 (compressedBuffer c out).length ++ stored c out)

/-- The bytes of the blocks. -/
def blocksBytes (entries : List (Int × List DataItem)) : List UInt8 :=
  entries.flatMap (blockBytes c)

/-- The metadata of the chains, of which the first is written at `offset`. -/
def indexFrom (offset : Nat) : List (Int × List DataItem) → List Index
  | [] => []
  | entry :: entries =>
    { keyRange := entry.1, offset := toInt offset } ::
      indexFrom (offset + (blockBytes c entry).length) entries

theorem buildChain_file (s : BuildState) (entry : Int × List DataItem) :
    (buildChain c s entry).file = s.file ++ blockBytes c entry := by
  rcases hc : c.useCompression with - | -
  · simp [buildChain, writeSize, writeRecord, blockBytes, block, stored, compressedBuffer, hc]
  · simp [buildChain, writeSize, writeRecord, blockBytes, block, stored, compressedBuffer, hc]

/-- The loop of `Build`. -/
theorem foldl_buildChain (entries : List (Int × List DataItem)) (s : BuildState)
    (hs : s.fileOffset = toInt s.file.length) :
    (entries.foldl (buildChain c) s).file = s.file ++ blocksBytes c entries ∧
      (entries.foldl (buildChain c) s).metadata =
        s.metadata ++ indexFrom c s.file.length entries := by
  induction entries generalizing s with
  | nil => simp [blocksBytes, indexFrom]
  | cons entry entries ih =>
    have hfile := buildChain_file c s entry
    have hmeta : (buildChain c s entry).metadata =
        s.metadata ++ [{ keyRange := entry.1, offset := toInt s.file.length }] := by
      rw [← hs]
      rfl
    obtain ⟨hf, hm⟩ := ih (buildChain c s entry) rfl
    rw [List.foldl_cons, hf, hm, hfile, hmeta]
    simp [blocksBytes, indexFrom]

/-- The chains of a list of calls of `Add`. -/
def entries (adds : List (List UInt8 × List UInt8)) : List (Int × List DataItem) :=
  (holder c adds).toList

/-- The metadata that `Build` writes. -/
def metadata (adds : List (List UInt8 × List UInt8)) : List Index :=
  indexFrom c 0 (entries c adds)

/-- The file in one piece. -/
theorem build_eq (adds : List (List UInt8 × List UInt8)) :
    build c (holder c adds) =
      blocksBytes c (entries c adds) ++
        (stored c (c.metadataProto.serialize (metadata c adds)) ++
          (toLe 4 (c.metadataProto.serialize (metadata c adds)).length ++
            toLe 4 (compressedBuffer c (c.metadataProto.serialize (metadata c adds))).length)) := by
  obtain ⟨hf, hm⟩ := foldl_buildChain c (entries c adds) {} rfl
  simp only [List.nil_append] at hf hm
  rw [build]
  show writeSize (writeSize (writeRecord c ((entries c adds).foldl (buildChain c) {}).file _) _) _ = _
  rw [show (holder c adds).toList = entries c adds from rfl, hf, hm]
  rcases hc : c.useCompression with - | -
  · simp [writeSize, writeRecord, stored, compressedBuffer, hc, metadata]
  · simp [writeSize, writeRecord, stored, compressedBuffer, hc, metadata]

/-- The index of a chain is the place of its block. -/
theorem mem_indexFrom {es : List (Int × List DataItem)} {entry : Int × List DataItem}
    (h : entry ∈ es) (offset : Nat) :
    ∃ pre post, es = pre ++ entry :: post ∧
      ⟨entry.1, toInt (offset + (blocksBytes c pre).length)⟩ ∈ indexFrom c offset es := by
  obtain ⟨pre, post, rfl⟩ := List.append_of_mem h
  refine ⟨pre, post, rfl, ?_⟩
  clear h
  induction pre generalizing offset with
  | nil => simp [indexFrom, blocksBytes]
  | cons e pre ih =>
    have hrec := ih (offset + (blockBytes c e).length)
    have hlen : offset + (blocksBytes c (e :: pre)).length =
        offset + (blockBytes c e).length + (blocksBytes c pre).length := by
      simp [blocksBytes]
      omega
    rw [hlen]
    exact List.mem_cons_of_mem _ hrec

theorem map_keyRange_indexFrom (offset : Nat) (es : List (Int × List DataItem)) :
    (indexFrom c offset es).map Index.keyRange = es.map Prod.fst := by
  induction es generalizing offset with
  | nil => rfl
  | cons e es ih => simp [indexFrom, ih]

/-! ### Reading -/

section

variable {c} {a b rest : List UInt8} {offset size : Int}

theorem readAt_eq (ho : offset = a.length) (hs : size = b.length) :
    readAt (a ++ (b ++ rest)) offset size = .ok b := by
  subst ho hs
  have hle : (a.length : Int) + (b.length : Int) ≤ ((a ++ (b ++ rest)).length : Int) := by
    simp only [List.length_append, Int.natCast_add]
    omega
  rw [readAt, if_pos ⟨Int.natCast_nonneg _, Int.natCast_nonneg _, hle⟩]
  simp

theorem readInt_eq {n : Nat} (hn : n < 2 ^ 31) (ho : offset = a.length) :
    readInt (a ++ (toLe 4 n ++ rest)) offset = .ok n := by
  rw [readInt, readAt_eq ho (by simp)]
  show Except.ok (ofLeInt (toLe 4 n)) = .ok (n : Int)
  rw [ofLeInt_toLe hn]

end

/-- What the table relies on for a message: it is parsed back from what it is serialised
to, zlib gives that string back, and protocol buffers do not serialise more than
`INT_MAX` bytes. -/
structure Storable {P : Type*} (proto : Proto P) (z : Zlib) (m : P) : Prop where
  parses : proto.Lossless m
  inflates : z.Lossless (proto.serialize m)
  size_lt : (proto.serialize m).length < 2 ^ 31

section

variable {c} {adds : List (List UInt8 × List UInt8)}

theorem length_compressedBuffer_le (out : List UInt8) :
    (compressedBuffer c out).length ≤ (stored c out).length := by
  rcases hc : c.useCompression with - | -
  · simp [compressedBuffer, hc]
  · simp [compressedBuffer, stored, hc]

theorem uncompress_compress {out : List UInt8} (hz : c.zlib.Lossless out) :
    uncompress c (c.zlib.compress out) out.length = .ok out := by
  rw [uncompress, Int.toNat_natCast, hz.2]

/-- Without compression there is no compressed buffer. -/
theorem useCompression_of_length_ne_zero {out : List UInt8}
    (h : ((compressedBuffer c out).length : Int) ≠ 0) : c.useCompression = true := by
  by_contra hc
  apply h
  simp [compressedBuffer, hc]

/-- What is stored is read back: the string itself, or one that is uncompressed to it. -/
theorem read_stored {file a rest out : List UInt8} (hz : c.zlib.Lossless out)
    (hfile : file = a ++ (stored c out ++ rest)) :
    (c.useCompression = false →
      (stored c out).length = out.length ∧ readAt file a.length out.length = .ok out) ∧
    (c.useCompression = true →
      (stored c out).length = (compressedBuffer c out).length ∧
        readAt file a.length (compressedBuffer c out).length = .ok (compressedBuffer c out) ∧
        uncompress c (compressedBuffer c out) out.length = .ok out) := by
  refine ⟨?_, ?_⟩
  · intro hc
    have hstored : stored c out = out := by simp [stored, hc]
    rw [hstored] at hfile ⊢
    rw [hfile]
    exact ⟨rfl, readAt_eq rfl rfl⟩
  · intro hc
    have hstored : stored c out = c.zlib.compress out := by simp [stored, hc]
    have hcomp : compressedBuffer c out = c.zlib.compress out := by simp [compressedBuffer, hc]
    rw [hstored] at hfile ⊢
    rw [hcomp, hfile]
    exact ⟨rfl, readAt_eq rfl rfl, uncompress_compress hz⟩

/-- A size that is not too large is kept. -/
theorem toInt_of_lt {n : Nat} (h : n < 2 ^ 31) : toInt n = n := by
  rw [toInt, Int32.toInt_ofNat_of_lt h]

/-- The two sizes at the end of a file. -/
theorem readSizes_trailer {file data : List UInt8} {size compressedSize : Nat}
    (hfile : file = data ++ (toLe 4 size ++ (toLe 4 compressedSize ++ []))) (hsize : size < 2 ^ 31)
    (hcompressed : compressedSize < 2 ^ 31) :
    readSizes file file.length = ((size : Int), (compressedSize : Int)) := by
  have hlen : file.length = data.length + 8 := by
    rw [hfile]
    simp
  have hfirst : readInt file (file.length - 8) = .ok (size : Int) := by
    rw [hlen, hfile]
    apply readInt_eq hsize
    simp
  have hsecond : readInt file (file.length - 4) = .ok (compressedSize : Int) := by
    have hsplit : file = (data ++ toLe 4 size) ++ (toLe 4 compressedSize ++ []) := by
      rw [hfile, List.append_assoc]
    rw [hlen, hsplit]
    apply readInt_eq hcompressed
    simp
    omega
  simp only [readSizes, hfirst, hsecond]

/-- `Open` of a file that was built. -/
theorem openTable_build (hfile : (build c (holder c adds)).length < 2 ^ 31)
    (hm : Storable c.metadataProto c.zlib (metadata c adds))
    (hne : c.metadataProto.serialize (metadata c adds) ≠ [])
    (hle : (c.metadataProto.serialize (metadata c adds)).length ≤
      (build c (holder c adds)).length) :
    openTable c (build c (holder c adds)) =
      .ok (some { file := build c (holder c adds), offsetMap := createMap (metadata c adds) }) := by
  have hparse : c.metadataProto.parse (c.metadataProto.serialize (metadata c adds)) = _ := hm.parses
  have hpos := List.length_pos_iff.mpr hne
  have hlt := hm.size_lt
  have hz := hm.inflates
  set out := c.metadataProto.serialize (metadata c adds) with hout
  set file := build c (holder c adds) with hfileeq
  have hbuild : file = blocksBytes c (entries c adds) ++ (stored c out ++
      (toLe 4 out.length ++ (toLe 4 (compressedBuffer c out).length ++ []))) := by
    rw [List.append_nil]
    exact build_eq c adds
  have hlen : file.length =
      (blocksBytes c (entries c adds)).length + (stored c out).length + 8 := by
    rw [hbuild]
    simp
    omega
  have hcle := length_compressedBuffer_le (c := c) out
  have htrailer : file = (blocksBytes c (entries c adds) ++ stored c out) ++
      (toLe 4 out.length ++ (toLe 4 (compressedBuffer c out).length ++ [])) := by
    rw [hbuild, List.append_assoc]
  have hsizes := readSizes_trailer htrailer hlt (by omega)
  have hbad : ¬ ((out.length : Int) ≤ 0 ∨ (out.length : Int) > file.length) := by omega
  have hmode : ¬ (((compressedBuffer c out).length : Int) ≠ 0 ∧ ¬ c.useCompression) :=
    fun h => h.2 (useCompression_of_length_ne_zero h.1)
  obtain ⟨hplain, hpacked⟩ := read_stored hz hbuild
  simp only [openTable, toInt_of_lt hfile, hsizes, if_neg hmode, if_neg hbad, bind, Except.bind,
    pure, Except.pure]
  -- both modes find the start of the metadata from the end of the file
  rcases hc : c.useCompression with - | -
  · obtain ⟨hstored, hread⟩ := hplain hc
    have hstart : (file.length : Int) - out.length - 8 =
        (blocksBytes c (entries c adds)).length := by
      omega
    rw [if_pos (by simp), hstart, hread]
    dsimp only
    rw [hparse]
  · obtain ⟨hstored, hread, hzip⟩ := hpacked hc
    have hstart : (file.length : Int) - (compressedBuffer c out).length - 8 =
        (blocksBytes c (entries c adds)).length := by
      omega
    rw [if_neg (by simp), hstart, hread]
    dsimp only
    rw [hzip]
    dsimp only
    rw [hparse]

/-! ### Looking up -/

/-- The values added under a key, in order. -/
def values (adds : List (List UInt8 × List UInt8)) (key : List UInt8) : List (List UInt8) :=
  (adds.filter fun kv => kv.1 = key).map Prod.snd

/-- The values of a key are in the chain of its hash value. -/
theorem chain_filter (adds : List (List UInt8 × List UInt8)) (key : List UInt8) :
    ((chain c adds (c.hashFunc key)).filter fun item => item.key = key).map DataItem.data =
      values adds key := by
  induction adds with
  | nil => rfl
  | cons kv adds ih =>
    simp only [chain, values, List.filter_cons] at ih ⊢
    by_cases hkey : kv.1 = key
    · simp [hkey, ih]
    · by_cases hhash : c.hashFunc kv.1 = c.hashFunc key
      · simp [hkey, hhash, ih]
      · simp [hkey, hhash, ih]

theorem distinct_metadata (adds : List (List UInt8 × List UInt8)) :
    ((metadata c adds).map fun index => (index.keyRange, index.offset)).Pairwise
      fun a b => ¬ compare a.1 b.1 = .eq := by
  have hkeys : ((entries c adds).map Prod.fst).Pairwise fun a b => ¬ compare a b = .eq :=
    List.pairwise_map.mpr Std.TreeMap.distinct_keys_toList
  rw [← map_keyRange_indexFrom c 0, List.pairwise_map] at hkeys
  exact List.pairwise_map.mpr hkeys

/-- A hash value that does not occur has no offset. -/
theorem findOffset_none (file : List UInt8) {h : Int} (hh : chain c adds h = []) :
    findOffset { file := file, offsetMap := createMap (metadata c adds) } h = -1 := by
  have hnot : h ∉ (metadata c adds).map Index.keyRange := by
    rw [metadata, map_keyRange_indexFrom]
    intro hmem
    obtain ⟨entry, hentry, rfl⟩ := List.mem_map.mp hmem
    have hsome := Std.TreeMap.mem_toList_iff_getElem?_eq_some.mp hentry
    rw [holder_getElem?, if_pos hh] at hsome
    cases hsome
  have hnone : (createMap (metadata c adds))[h]? = none := by
    apply Std.TreeMap.getElem?_ofList_of_contains_eq_false
    simpa [Function.comp_def] using hnot
  simp [findOffset, hnone]

/-- The offset of a hash value that occurs is that of the block of its chain. -/
theorem findOffset_some (file : List UInt8) {h : Int} (hh : chain c adds h ≠ []) :
    ∃ pre post, entries c adds = pre ++ (h, chain c adds h) :: post ∧
      findOffset { file := file, offsetMap := createMap (metadata c adds) } h =
        toInt (blocksBytes c pre).length := by
  have hentry : (h, chain c adds h) ∈ entries c adds := by
    apply Std.TreeMap.mem_toList_iff_getElem?_eq_some.mpr
    rw [holder_getElem?, if_neg hh]
  obtain ⟨pre, post, heq, hindex⟩ := mem_indexFrom c hentry 0
  refine ⟨pre, post, heq, ?_⟩
  have hsome : (createMap (metadata c adds))[h]? = some (toInt (blocksBytes c pre).length) := by
    apply Std.TreeMap.getElem?_ofList_of_mem (k := h) (by simp) (distinct_metadata adds)
    refine List.mem_map.mpr ⟨_, hindex, ?_⟩
    simp
  simp [findOffset, hsome]

/-- A key whose hash value has an offset is looked up in the block there. -/
theorem lookup_block {t : Table} {key a rest : List UInt8} {entry : Int × List DataItem}
    (hoff : findOffset t (c.hashFunc key) = a.length)
    (hfile : t.file = a ++ (blockBytes c entry ++ rest)) (hlen : t.file.length < 2 ^ 31)
    (hb : Storable c.blockProto c.zlib (block entry)) :
    lookup c t key =
      .ok ((entry.2.filter fun item => item.key = key).map DataItem.data) := by
  have hparse : c.blockProto.parse (c.blockProto.serialize (block entry)) = _ := hb.parses
  have hlt := hb.size_lt
  have hz := hb.inflates
  simp only [blockBytes] at hfile
  set out := c.blockProto.serialize (block entry) with hout
  have hcle := length_compressedBuffer_le (c := c) out
  have hsum : (stored c out).length ≤ t.file.length := by
    rw [hfile]
    simp
    omega
  -- the two sizes in front of the block
  have hsize : readInt t.file a.length = .ok (out.length : Int) := by
    rw [hfile, List.append_assoc]
    exact readInt_eq hlt rfl
  have hcsize : readInt t.file (a.length + 4) = .ok ((compressedBuffer c out).length : Int) := by
    have hsplit : t.file = (a ++ toLe 4 out.length) ++
        (toLe 4 (compressedBuffer c out).length ++ (stored c out ++ rest)) := by
      rw [hfile]
      simp only [List.append_assoc]
    rw [hsplit]
    apply readInt_eq (by omega)
    simp
  have hsplit : t.file = (a ++ (toLe 4 out.length ++ toLe 4 (compressedBuffer c out).length)) ++
      (stored c out ++ rest) := by
    rw [hfile]
    simp only [List.append_assoc]
  have hstart : (a.length : Int) + 8 =
      (a ++ (toLe 4 out.length ++ toLe 4 (compressedBuffer c out).length)).length := by
    simp
  have hnot : ¬ ((a.length : Int) = -1) := by omega
  have hmode : ¬ (¬ c.useCompression ∧ ((compressedBuffer c out).length : Int) ≠ 0) :=
    fun h => h.1 (useCompression_of_length_ne_zero h.2)
  obtain ⟨hplain, hpacked⟩ := read_stored hz hsplit
  simp only [lookup, hoff, if_neg hnot, hsize, hcsize, if_neg hmode, hstart, bind, Except.bind,
    pure, Except.pure]
  rcases hc : c.useCompression with - | -
  · rw [if_neg (by simp), (hplain hc).2]
    dsimp only
    rw [hparse]
    rfl
  · obtain ⟨-, hread, hzip⟩ := hpacked hc
    rw [if_pos rfl, hread]
    dsimp only
    rw [hzip]
    dsimp only
    rw [hparse]
    rfl

/-- Looking a key up in a table that was built and opened. -/
theorem lookup_built (hfile : (build c (holder c adds)).length < 2 ^ 31)
    (hblocks : ∀ entry ∈ entries c adds, Storable c.blockProto c.zlib (block entry))
    (key : List UInt8) :
    lookup c { file := build c (holder c adds), offsetMap := createMap (metadata c adds) } key =
      .ok (values adds key) := by
  by_cases hchain : chain c adds (c.hashFunc key) = []
  · have hvalues := chain_filter (c := c) adds key
    rw [hchain] at hvalues
    rw [← hvalues, lookup, findOffset_none _ hchain]
    rfl
  · obtain ⟨pre, post, heq, hoff⟩ := findOffset_some (build c (holder c adds)) hchain
    rw [← chain_filter]
    have hmem : (c.hashFunc key, chain c adds (c.hashFunc key)) ∈ entries c adds := by
      rw [heq]
      simp
    have hsplit : build c (holder c adds) = blocksBytes c pre ++
        (blockBytes c (c.hashFunc key, chain c adds (c.hashFunc key)) ++ (blocksBytes c post ++
          (stored c (c.metadataProto.serialize (metadata c adds)) ++
            (toLe 4 (c.metadataProto.serialize (metadata c adds)).length ++
              toLe 4 (compressedBuffer c
                (c.metadataProto.serialize (metadata c adds))).length)))) := by
      rw [build_eq, heq]
      simp [blocksBytes]
    have hpre : (blocksBytes c pre).length < 2 ^ 31 := by
      rw [hsplit, List.length_append] at hfile
      omega
    rw [toInt_of_lt hpre] at hoff
    exact lookup_block hoff hsplit hfile (hblocks _ hmem)

/-- The chain of the first key is not empty, so there is an index. -/
theorem metadata_ne_nil (hne : adds ≠ []) : metadata c adds ≠ [] := by
  obtain ⟨kv, adds', rfl⟩ := List.exists_cons_of_ne_nil hne
  have hchain : chain c (kv :: adds') (c.hashFunc kv.1) ≠ [] := by simp [chain]
  obtain ⟨pre, post, heq, -⟩ := findOffset_some [] hchain
  intro hnil
  have hkeys := map_keyRange_indexFrom c 0 (entries c (kv :: adds'))
  rw [metadata] at hnil
  rw [hnil, heq] at hkeys
  simp at hkeys

/-- **The round trip of a table.**  A file built from calls of `Add` can be opened, and
looking up a key gives the values added under it, in order, and no others. -/
theorem lookup_build (c : Config) (adds : List (List UInt8 × List UInt8)) (hne : adds ≠ [])
    (hfile : (build c (holder c adds)).length < 2 ^ 31)
    (hblocks : ∀ entry ∈ entries c adds, Storable c.blockProto c.zlib (block entry))
    (hm : Storable c.metadataProto c.zlib (metadata c adds))
    (hmne : metadata c adds ≠ [] → c.metadataProto.serialize (metadata c adds) ≠ [])
    (hle : (c.metadataProto.serialize (metadata c adds)).length ≤
      (build c (holder c adds)).length) :
    ∃ t, openTable c (build c (holder c adds)) = .ok (some t) ∧
      ∀ key, lookup c t key = .ok (values adds key) :=
  ⟨_, openTable_build hfile hm (hmne (metadata_ne_nil hne)) hle, lookup_built hfile hblocks⟩

end

/-- The values 1 and 3 under the key `a`, and 2 under the key `b`. -/
def smallAdds : List (List UInt8 × List UInt8) := [([97], [49]), ([98], [50]), ([97], [51])]

def smallItem (i : DataItem) : List UInt8 :=
  [10, UInt8.ofNat i.key.length] ++ i.key ++ [18, UInt8.ofNat i.data.length] ++ i.data

def smallBlock : Block := ⟨.flatString, [⟨[97], [49]⟩, ⟨[98], [50]⟩, ⟨[97], [51]⟩]⟩

/-- A compressed table in which all keys have the same hash value. -/
def smallConfig : Config where
  hashFunc _ := 7
  blockProto :=
    { serialize := fun b => b.data.flatMap fun i =>
        [18, UInt8.ofNat (smallItem i).length] ++ smallItem i
      parse := fun _ => smallBlock }
  metadataProto :=
    { serialize := fun m => m.flatMap fun i => [10, 2, 8, UInt8.ofNat i.keyRange.toNat]
      parse := fun _ => [⟨7, 0⟩] }
  zlib :=
    { compress := fun s =>
        if s.length = 4 then [120, 156, 227, 98, 226, 96, 7, 0, 0, 73, 0, 28]
        else [120, 156, 19, 98, 227, 98, 76, 20, 98, 52, 20, 2, 210, 73, 66, 140, 70, 66, 16, 190, 49,
          0, 27, 167, 2, 93]
      uncompress := fun _ n =>
        if n = 4 then some [10, 2, 8, 7]
        else some [18, 6, 10, 1, 97, 18, 1, 49, 18, 6, 10, 1, 98, 18, 1, 50, 18, 6, 10, 1, 97, 18, 1,
          51] }
  useCompression := true

theorem lookup_build_small :
    ∃ t, openTable smallConfig (build smallConfig (holder smallConfig smallAdds)) = .ok (some t) ∧
      lookup smallConfig t [97] = .ok [[49], [51]] ∧ lookup smallConfig t [99] = .ok [] := by
  have hentries : entries smallConfig smallAdds = [(7, smallBlock.data)] := by decide +kernel
  have hmeta : metadata smallConfig smallAdds = [⟨7, 0⟩] := by
    rw [metadata, hentries]
    rfl
  have hblock : Storable smallConfig.blockProto smallConfig.zlib smallBlock :=
    ⟨rfl, by decide, by decide⟩
  have hm : Storable smallConfig.metadataProto smallConfig.zlib [⟨7, 0⟩] :=
    ⟨rfl, by decide, by decide⟩
  have hblocks : ∀ entry ∈ entries smallConfig smallAdds,
      Storable smallConfig.blockProto smallConfig.zlib (block entry) := by
    intro entry hentry
    rw [hentries] at hentry
    rw [List.mem_singleton.mp hentry]
    exact hblock
  obtain ⟨t, ht, hlookup⟩ := lookup_build smallConfig smallAdds (by simp [smallAdds])
    (by decide +kernel) hblocks (by rw [hmeta]; exact hm) (by rw [hmeta]; decide)
    (by decide +kernel)
  exact ⟨t, ht, hlookup [97], hlookup [99]⟩

/-! ### Reader and builder -/

/-- A reader of the tables of a builder, with a mode of its own. -/
def Config.reader (c : Config) (useCompression : Bool) : Config := { c with useCompression }

/-- `Open` returns false, or the table gives every key the values added under it. -/
def OpensSafely (c : Config) (useCompression : Bool) (adds : List (List UInt8 × List UInt8)) :
    Prop :=
  match openTable (c.reader useCompression) (build c (holder c adds)) with
  | .ok none => True
  | .ok (some t) => ∀ key, lookup (c.reader useCompression) t key = .ok (values adds key)
  | .error _ => False

/-- The file is smaller than 2 GiB, and it is empty, or was compressed, or the reader does not
expect that; or what an `int` keeps of its size is too small for the sizes at its end. -/
def ModesAgree (c : Config) (useCompression : Bool) (adds : List (List UInt8 × List UInt8)) :
    Prop :=
  (build c (holder c adds)).length < 2 ^ 31 ∧
      (adds = [] ∨ c.useCompression = true ∨ useCompression = false) ∨
    toInt (build c (holder c adds)).length < 8

section

variable {c : Config} {adds : List (List UInt8 × List UInt8)} {file : List UInt8} {size csize : Int}

/-- `Open` returns false if it finds no metadata, or a size in front of them that does not
fit the mode. -/
theorem openTable_refused (hsizes : readSizes file (toInt file.length) = (size, csize))
    (h : csize ≠ 0 ∧ c.useCompression = false ∨ size ≤ 0 ∨ size > toInt file.length) :
    openTable c file = .ok none := by
  simp only [openTable, hsizes]
  by_cases hmode : csize ≠ 0 ∧ ¬ c.useCompression
  · rw [if_pos hmode]
    rfl
  · have hsize : size ≤ 0 ∨ size > toInt file.length := by
      refine h.resolve_left fun hno => hmode ⟨hno.1, ?_⟩
      rw [hno.2]
      exact Bool.false_ne_true
    rw [if_neg hmode, if_pos hsize]
    rfl

/-- There is nothing to read in front of the file. -/
theorem readSizes_small (h : size < 8) : readSizes file size = (0, 0) := by
  have hread : readInt file (size - 8) = .error .badRead := by
    rw [readInt, readAt, if_neg]
    · rfl
    · omega
  simp only [readSizes, hread]

/-- The sizes of the metadata are found at the end of a file. -/
theorem readSizes_build (hfile : (build c (holder c adds)).length < 2 ^ 31)
    (hm : Storable c.metadataProto c.zlib (metadata c adds)) :
    readSizes (build c (holder c adds)) (toInt (build c (holder c adds)).length) =
      (((c.metadataProto.serialize (metadata c adds)).length : Int),
        ((compressedBuffer c (c.metadataProto.serialize (metadata c adds))).length : Int)) := by
  have hbuild : build c (holder c adds) =
      (blocksBytes c (entries c adds) ++ stored c (c.metadataProto.serialize (metadata c adds))) ++
        (toLe 4 (c.metadataProto.serialize (metadata c adds)).length ++
          (toLe 4 (compressedBuffer c
            (c.metadataProto.serialize (metadata c adds))).length ++ [])) := by
    rw [build_eq, List.append_nil, List.append_assoc]
  have hcle := length_compressedBuffer_le (c := c) (c.metadataProto.serialize (metadata c adds))
  have hstored : (stored c (c.metadataProto.serialize (metadata c adds))).length ≤
      (build c (holder c adds)).length := by
    rw [hbuild]
    simp
    omega
  rw [toInt_of_lt hfile]
  exact readSizes_trailer hbuild hm.size_lt (by omega)

/-- A table that was not compressed ends the program of a reader that expects it to be. -/
theorem openTable_fatal (hfile : (build c (holder c adds)).length < 2 ^ 31)
    (hm : Storable c.metadataProto c.zlib (metadata c adds))
    (hne : c.metadataProto.serialize (metadata c adds) ≠ [])
    (hzlib : ∀ n, c.zlib.uncompress [] n = none) (hb : c.useCompression = false) :
    openTable (c.reader true) (build c (holder c adds)) = .error .fatal := by
  have hsizes := readSizes_build hfile hm
  have hpos := List.length_pos_iff.mpr hne
  have hnone : compressedBuffer c (c.metadataProto.serialize (metadata c adds)) = [] := by
    simp [compressedBuffer, hb]
  have hstored : stored c (c.metadataProto.serialize (metadata c adds)) =
      c.metadataProto.serialize (metadata c adds) := by
    simp [stored, hb]
  have hlen : (c.metadataProto.serialize (metadata c adds)).length + 8 ≤
      (build c (holder c adds)).length := by
    rw [build_eq, hstored]
    simp
  rw [hnone] at hsizes
  simp only [openTable, hsizes]
  rw [toInt_of_lt hfile, if_neg (by simp), if_neg (by omega), if_neg (by simp [Config.reader])]
  have hread : readAt (build c (holder c adds))
      ((build c (holder c adds)).length - (([] : List UInt8).length : Int) - 8)
      (([] : List UInt8).length : Int) = .ok [] := by
    rw [readAt, if_pos (by simp; omega)]
    simp
  rw [hread]
  show (match c.zlib.uncompress [] _ with
    | some output => Except.ok output
    | none => Except.error Error.fatal) >>= _ = _
  rw [hzlib]
  rfl

theorem metadata_nil (h : adds = []) : metadata c adds = [] := by
  subst h
  rfl

theorem opensSafely_of_refused {useCompression : Bool}
    (hsizes : readSizes (build c (holder c adds)) (toInt (build c (holder c adds)).length) =
      (size, csize))
    (h : csize ≠ 0 ∧ useCompression = false ∨ size ≤ 0 ∨
      size > toInt (build c (holder c adds)).length) : OpensSafely c useCompression adds := by
  rw [OpensSafely, openTable_refused (c := c.reader useCompression) hsizes h]
  trivial

/-- A reader in the mode of the builder: the metadata are read back, unless they are larger
than their file. -/
theorem opensSafely_same {useCompression : Bool}
    (hfile : (build c (holder c adds)).length < 2 ^ 31)
    (hblocks : ∀ entry ∈ entries c adds, Storable c.blockProto c.zlib (block entry))
    (hm : Storable c.metadataProto c.zlib (metadata c adds))
    (hne : c.metadataProto.serialize (metadata c adds) ≠ [])
    (hreader : c.reader useCompression = c) : OpensSafely c useCompression adds := by
  rcases Nat.lt_or_ge (build c (holder c adds)).length
    (c.metadataProto.serialize (metadata c adds)).length with hlt | hle
  · apply opensSafely_of_refused (readSizes_build hfile hm)
    right; right
    rw [toInt_of_lt hfile]
    omega
  · rw [OpensSafely, hreader, openTable_build hfile hm hne hle]
    exact lookup_built hfile hblocks

/-- The size of a file of 2 to 4 GiB looks negative. -/
theorem toInt_of_ge {n : Nat} (h : 2 ^ 31 ≤ n) (hlt : n < 2 ^ 32) : toInt n < 8 := by
  rw [toInt, Int32.toInt_ofNat']
  have hsize : Int32.size = 2 ^ 32 := rfl
  rw [hsize, Int.bmod_def]
  split
  · omega
  · omega

end

/-- Opening a table is safe under the condition, for tables of any size and all modes; and
of a table of less than 4 GiB only under the condition. -/
theorem opens_safely_iff (c : Config) (useCompression : Bool)
    (adds : List (List UInt8 × List UInt8))
    (hblocks : ∀ entry ∈ entries c adds, Storable c.blockProto c.zlib (block entry))
    (hm : Storable c.metadataProto c.zlib (metadata c adds))
    (hempty : c.metadataProto.serialize (metadata c adds) = [] ↔ metadata c adds = [])
    (hzlib : ∀ n, c.zlib.uncompress [] n = none) :
    (ModesAgree c useCompression adds → OpensSafely c useCompression adds) ∧
      ((build c (holder c adds)).length < 2 ^ 32 → OpensSafely c useCompression adds →
        ModesAgree c useCompression adds) := by
  refine ⟨?_, ?_⟩
  · rintro (⟨hfile, hmodes⟩ | hsmall)
    · have hsizes := readSizes_build hfile hm
      by_cases hnil : adds = []
      · -- an empty table has no metadata
        apply opensSafely_of_refused hsizes
        right; left
        rw [hempty.mpr (metadata_nil hnil)]
        exact Int.le_refl 0
      · rcases hr : useCompression with - | -
        · rcases hb : c.useCompression with - | -
          · have hreader : c.reader false = c := by rw [← hb]; rfl
            exact opensSafely_same hfile hblocks hm
              (fun he => metadata_ne_nil hnil (hempty.mp he)) hreader
          · apply opensSafely_of_refused hsizes
            left
            refine ⟨?_, rfl⟩
            have hcompressed : compressedBuffer c (c.metadataProto.serialize (metadata c adds))
                ≠ [] := by
              rw [compressedBuffer, if_pos hb]
              exact hm.inflates.1
            have hpos := List.length_pos_iff.mpr hcompressed
            omega
        · have hb : c.useCompression = true := by
            rcases hmodes with hadds | hb | hno
            · exact absurd hadds hnil
            · exact hb
            · rw [hr] at hno
              cases hno
          have hreader : c.reader true = c := by rw [← hb]; rfl
          exact opensSafely_same hfile hblocks hm
            (fun he => metadata_ne_nil hnil (hempty.mp he)) hreader
    · exact opensSafely_of_refused (readSizes_small hsmall) (.inr (.inl (Int.le_refl 0)))
  · intro hlarge hsafe
    by_contra hno
    rw [ModesAgree, not_or, not_and, not_or, not_or] at hno
    obtain ⟨hmodes, hsize⟩ := hno
    have hfile : (build c (holder c adds)).length < 2 ^ 31 := by
      by_contra hge
      exact hsize (toInt_of_ge (Nat.le_of_not_lt hge) hlarge)
    obtain ⟨hnil, hb, hr⟩ := hmodes hfile
    rw [Bool.not_eq_true] at hb
    rw [Bool.not_eq_false] at hr
    have hne := fun he => metadata_ne_nil hnil (hempty.mp he)
    rw [OpensSafely, hr, openTable_fatal hfile hm hne hzlib hb] at hsafe
    exact hsafe

/-- The table of `smallConfig` without compression, with a zlib that knows of no empty
source. -/
def plainConfig : Config :=
  { smallConfig with
    zlib := { smallConfig.zlib with
      uncompress := fun s n => if s = [] then none else smallConfig.zlib.uncompress s n }
    useCompression := false }

theorem entries_plain : entries plainConfig smallAdds = [(7, smallBlock.data)] := by
  decide +kernel

theorem metadata_plain : metadata plainConfig smallAdds = [⟨7, 0⟩] := by
  rw [metadata, entries_plain]
  rfl

theorem storable_plain :
    Storable plainConfig.metadataProto plainConfig.zlib (metadata plainConfig smallAdds) := by
  rw [metadata_plain]
  exact ⟨rfl, by decide, by decide⟩

theorem opens_safely_plain : OpensSafely plainConfig false smallAdds := by
  have hblocks : ∀ entry ∈ entries plainConfig smallAdds,
      Storable plainConfig.blockProto plainConfig.zlib (block entry) := by
    intro entry hentry
    rw [entries_plain] at hentry
    rw [List.mem_singleton.mp hentry]
    exact ⟨rfl, by decide, by decide⟩
  refine (opens_safely_iff plainConfig false smallAdds hblocks storable_plain ?_
    fun _ => rfl).1 (.inl ⟨by decide +kernel, .inr (.inr rfl)⟩)
  rw [metadata_plain]
  decide

/-- A reader in its default mode opens a table that was not compressed. -/
theorem not_opens_safely : ¬ OpensSafely plainConfig true smallAdds := by
  have hfatal := openTable_fatal (by decide +kernel)
    storable_plain (by rw [metadata_plain]; decide) (fun _ => rfl) rfl
  rw [OpensSafely, hfatal]
  exact not_false

end Orbit.SSTable
