import ProjectEvaluation.Lib.Binary64
import ProjectEvaluation.Sqlite.Varint

/-!
# The record format (`vdbe.c`, `vdbeaux.c`)

A row is one blob: the size of the header, a type for each column, and the columns. Integers are
stored in as few bytes as their value needs; 0 and 1 need none. `OP_MakeRecord` writes records,
`sqlite3VdbeRecordUnpack` reads all columns of one, and `OP_Column` reads one column, with what
the cursor remembers of the header from the columns read before. A row may go on on overflow
pages.

Texts are UTF-8, and memory runs out only where a size is refused.
-/

namespace ProjectEvaluation.Sqlite

/-- A register, by the flag that decides what is written of it (`vdbeInt.h`, lines 232–256). -/
inductive Mem
  | null
  /-- A NULL of a column that an UPDATE does not change. -/
  | noChange
  | int (i : BitVec 64)
  /-- `MEM_IntReal`: an integer that stands for a real. -/
  | intReal (i : BitVec 64)
  | real (r : BitVec 64)
  | str (z : List UInt8)
  | blob (z : List UInt8)
  /-- `MEM_Zero`: a blob that ends in `nZero` bytes 0. -/
  | zeroBlob (z : List UInt8) (nZero : ℕ)
  deriving DecidableEq

/-- `sqlite3SmallTypeSizes` (`vdbeaux.c`, lines 3964–3979). -/
def sqlite3SmallTypeSizes : List ℕ :=
  [0, 1, 2, 3, 4, 6, 8, 8, 0, 0,
    0, 0, 0, 0, 1, 1, 2, 2, 3, 3,
    4, 4, 5, 5, 6, 6, 7, 7, 8, 8,
    9, 9, 10, 10, 11, 11, 12, 12, 13, 13,
    14, 14, 15, 15, 16, 16, 17, 17, 18, 18,
    19, 19, 20, 20, 21, 21, 22, 22, 23, 23,
    24, 24, 25, 25, 26, 26, 27, 27, 28, 28,
    29, 29, 30, 30, 31, 31, 32, 32, 33, 33,
    34, 34, 35, 35, 36, 36, 37, 37, 38, 38,
    39, 39, 40, 40, 41, 41, 42, 42, 43, 43,
    44, 44, 45, 45, 46, 46, 47, 47, 48, 48,
    49, 49, 50, 50, 51, 51, 52, 52, 53, 53,
    54, 54, 55, 55, 56, 56, 57, 57]

/-- `sqlite3SmallTypeSizes[t]` (`vdbeaux.c`, lines 3993–3996). -/
def smallTypeSize (t : ℕ) : ℕ := sqlite3SmallTypeSizes.getD t 0

/-- `sqlite3VdbeSerialTypeLen` (`vdbeaux.c`, lines 3984–3992). -/
def sqlite3VdbeSerialTypeLen (t : ℕ) : ℕ := if 128 ≤ t then (t - 12) / 2 else smallTypeSize t

/-! ## Affinity -/

/-- `SQLITE_AFF_REAL` (`sqliteInt.h`, line 2335). -/
def affReal : Char := 'E'

/-- The loop that applies the affinities (`vdbe.c`, lines 3513–3529), where `applyAffinity` is
    that function with the encoding of the texts. -/
def applyAffinities (applyAffinity : Char → Mem → Mem) : List Char → List Mem → List Mem
  | affinity :: zAffinity, m :: fields =>
    (match applyAffinity affinity m with
      | .int i => if affinity = affReal then .intReal i else .int i
      | m => m) :: applyAffinities applyAffinity zAffinity fields
  | _, fields => fields

/-! ## Writing -/

/-- `uu` (`vdbe.c`, lines 3596–3600): an integer without its sign. -/
def unsigned (i : BitVec 64) : ℕ := (if i.toInt < 0 then ~~~i else i).toNat

/-- The serial type of an integer (`vdbe.c`, lines 3607–3639). -/
def intType (minWriteFileFormat : ℕ) (i : BitVec 64) : ℕ :=
  if unsigned i ≤ 127 then if i &&& 1 = i ∧ 4 ≤ minWriteFileFormat then 8 + unsigned i else 1
  else if unsigned i ≤ 32767 then 2
  else if unsigned i ≤ 8388607 then 3
  else if unsigned i ≤ 2147483647 then 4
  else if unsigned i ≤ 140737488355327 then 5
  else 6

/-- `(double)i`, for `i` other than 0: the sign, the exponent, and 52 bits of the number. -/
def toDouble (i : BitVec 64) : BitVec 64 :=
  let n := Binary64.nearest i.toInt.natAbs 1
  let e := n.log2
  BitVec.ofNat 64
    ((if i.toInt < 0 then 2 ^ 63 else 0) + (e + 1023) * 2 ^ 52 + (n * 2 ^ 52 / 2 ^ e - 2 ^ 52))

example : toDouble (-3) = 0xC008000000000000 := by decide +kernel

example : toDouble (2 ^ 53 + 1) = 0x4340000000000000 := by decide +kernel

/-- The serial type of a register (`Mem.uTemp`) (`vdbe.c`, lines 3574–3661). -/
def Mem.serialType (minWriteFileFormat : ℕ) : Mem → ℕ
  | null => 0
  | noChange => 10
  | int i | intReal i => intType minWriteFileFormat i
  | real _ => 7
  | str z => u32 (z.length * 2 + 12 + 1)
  | blob z => u32 (z.length * 2 + 12)
  | zeroBlob z nZero => u32 (u32 (z.length * 2 + 12) + nZero * 2)

/-- What a register adds to `nHdr`. -/
def Mem.headerSize (minWriteFileFormat : ℕ) (m : Mem) : ℕ :=
  match m with
  | str _ | blob _ | zeroBlob _ _ => sqlite3VarintLen (m.serialType minWriteFileFormat)
  | _ => 1

/-- What a register adds to `nData`. -/
def Mem.dataSize (minWriteFileFormat : ℕ) (m : Mem) : ℕ :=
  match m with
  | null | noChange => 0
  | int i | intReal i =>
    match intType minWriteFileFormat i with
    | 1 => 1
    | 2 => 2
    | 3 => 3
    | 4 => 4
    | 5 => 6
    | 6 => 8
    | _ => 0
  | real _ => 8
  | str z | blob z | zeroBlob z _ => z.length

/-- What a register adds to `nZero`. -/
def Mem.zeros : Mem → ℕ
  | zeroBlob _ nZero => nZero
  | _ => 0

/-- What the loop does to a register before `nData` bytes of others (`vdbe.c`, lines 3590–3659):
    an IntReal of 8 bytes is made a real, and the zeros of a blob are written out
    (`sqlite3VdbeMemExpandBlob`). -/
def Mem.prepare (minWriteFileFormat nData : ℕ) : Mem → Mem
  | intReal i => if intType minWriteFileFormat i = 6 then real (toDouble i) else intReal i
  | zeroBlob z nZero =>
    if nData = 0 then zeroBlob z nZero else blob (z ++ List.replicate nZero 0)
  | m => m

/-- The sizes of the parts of a record. -/
structure RecordSize where
  nHdr : ℕ
  nData : ℕ
  nZero : ℕ
  deriving DecidableEq

/-- The loop that computes the space, from the last register to the first (`vdbe.c`, lines
    3571–3664), with the registers as it leaves them. -/
def measure (minWriteFileFormat : ℕ) : List Mem → List Mem × RecordSize
  | [] => ([], { nHdr := 0, nData := 0, nZero := 0 })
  | m :: fields =>
    let (fields, size) := measure minWriteFileFormat fields
    let m := m.prepare minWriteFileFormat size.nData
    (m :: fields,
      { nHdr := size.nHdr + m.headerSize minWriteFileFormat
        nData := size.nData + m.dataSize minWriteFileFormat
        nZero := size.nZero + m.zeros })

/-- The 64 bits of a number. -/
def Mem.bits : Mem → ℕ
  | int i | intReal i => i.toNat
  | real r => r.toNat
  | _ => 0

/-- `pRec->z`. -/
def Mem.z : Mem → List UInt8
  | str z | blob z | zeroBlob z _ => z
  | _ => []

/-- The switch that writes the lowest `len` bytes of `v` from `zPayload[len - 1]` down (`vdbe.c`,
    lines 3741–3755). -/
def putBytes : ℕ → ℕ → List UInt8 → List UInt8
  | 0, _, p => p
  | len + 1, v, p => putBytes len (v >>> 8) (UInt8.ofNat (v &&& 0xff) :: p)

/-- What is written to the header for a serial type (`vdbe.c`, lines 3726–3766). -/
def typeBytes (t : ℕ) : List UInt8 := if t < 0x80 then [UInt8.ofNat t] else sqlite3PutVarint t

/-- What is written to the payload (`vdbe.c`, lines 3730–3772). -/
def Mem.payload (t : ℕ) (m : Mem) : List UInt8 :=
  if t ≤ 7 then if t = 0 then [] else putBytes (smallTypeSize t) m.bits []
  else if t < 0x80 then if 14 ≤ t then m.z else []
  else m.z

/-- The size of the header, with the number that says it (`vdbe.c`, lines 3672–3680). -/
def headerSize (nHdr : ℕ) : ℕ :=
  if nHdr ≤ 126 then nHdr + 1
  else
    let nVarint := sqlite3VarintLen nHdr
    let nHdr := nHdr + nVarint
    if nVarint < sqlite3VarintLen nHdr then nHdr + 1 else nHdr

/-- Why no record is made. -/
inductive RecordError
  | tooBig
  | noMem
  deriving DecidableEq

/-- `SQLITE_MAX_ALLOCATION_SIZE` (`malloc.c`, line 307). -/
def maxAllocationSize : ℕ := 2147483391

/-- `SQLITE_MAX_LENGTH`: no `SQLITE_LIMIT_LENGTH` is above it (`sqliteLimit.h`, lines 20–25). -/
def sqliteMaxLength : ℕ := 1000000000

/-- A record as `OP_MakeRecord` writes it: the space it takes, what is written from the start of
    it and from the end of the header on, and the number of zeros after that. -/
structure MadeRecord where
  nHdr : ℕ
  nData : ℕ
  header : List UInt8
  payload : List UInt8
  nZero : ℕ
  deriving DecidableEq

/-- The bytes of a record, its zeros written out. -/
def MadeRecord.bytes (r : MadeRecord) : List UInt8 :=
  r.header ++ r.payload ++ List.replicate r.nZero 0

/-- `OP_MakeRecord` (`vdbe.c`, lines 3467–3783), where `SQLITE_ENABLE_NULL_TRIM` is not set.
    `szMalloc` is the size of the buffer that the output register has already, and `lengthLimit`
    is `SQLITE_LIMIT_LENGTH`. -/
def makeRecord (applyAffinity : Char → Mem → Mem) (zAffinity : List Char)
    (szMalloc lengthLimit minWriteFileFormat : ℕ) (fields : List Mem) :
    Except RecordError MadeRecord :=
  let (fields, size) :=
    measure minWriteFileFormat (applyAffinities applyAffinity zAffinity fields)
  let nHdr := headerSize size.nHdr
  let nByte := nHdr + size.nData
  if szMalloc < nByte + size.nZero ∧ lengthLimit < nByte + size.nZero then .error .tooBig
  else if szMalloc < nByte ∧ maxAllocationSize < nByte then .error .noMem
  else
    .ok
      { nHdr
        nData := size.nData
        header := typeBytes nHdr ++
          fields.flatMap fun m => typeBytes (m.serialType minWriteFileFormat)
        payload := fields.flatMap fun m => m.payload (m.serialType minWriteFileFormat)
        nZero := size.nZero }

/-! ## Reading -/

/-- `(i8)b` as an `int`. -/
def signedByte (b : ℕ) : ℕ := if b < 2 ^ 7 then b else b + (2 ^ 32 - 2 ^ 8)

/-- An `int` as an `i64`. -/
def signedInt (n : ℕ) : BitVec 64 :=
  BitVec.ofNat 64 (if n < 2 ^ 31 then n else n + (2 ^ 64 - 2 ^ 32))

/-- `ONE_BYTE_INT` (`vdbeaux.c`, line 4052). -/
def oneByteInt (x : List UInt8) : ℕ := signedByte (byte x 0)

/-- `TWO_BYTE_INT` (`vdbeaux.c`, line 4053). -/
def twoByteInt (x : List UInt8) : ℕ := u32 (256 * signedByte (byte x 0)) ||| byte x 1

/-- `THREE_BYTE_INT` (`vdbeaux.c`, line 4054). -/
def threeByteInt (x : List UInt8) : ℕ :=
  u32 (65536 * signedByte (byte x 0)) ||| byte x 1 <<< 8 ||| byte x 2

/-- `FOUR_BYTE_INT` (`vdbeaux.c`, line 4056). -/
def fourByteInt (x : List UInt8) : ℕ :=
  u32 (16777216 * signedByte (byte x 0)) ||| byte x 1 <<< 16 ||| byte x 2 <<< 8 ||| byte x 3

/-- `FOUR_BYTE_UINT` (`vdbeaux.c`, line 4055). -/
def fourByteUint (x : List UInt8) : ℕ :=
  byte x 0 <<< 24 ||| byte x 1 <<< 16 ||| byte x 2 <<< 8 ||| byte x 3

/-- The eight bytes `serialGet` reads (`vdbeaux.c`, lines 4067–4101). -/
def eightBytes (x : List UInt8) : BitVec 64 :=
  BitVec.ofNat 64 (fourByteUint x <<< 32 + fourByteUint (x.drop 4))

/-- `IsNaN` (`sqliteInt.h`, line 4817). -/
def isNaN (x : BitVec 64) : Bool :=
  let exp754 : BitVec 64 := 0x7ff <<< 52
  let man754 : BitVec 64 := 1 <<< 52 - 1
  x &&& exp754 == exp754 && x &&& man754 != 0

/-- `sqlite3VdbeSerialGet` (`vdbeaux.c`, lines 4119–4210). -/
def sqlite3VdbeSerialGet (buf : List UInt8) (t : ℕ) : Mem :=
  match t with
  | 10 => .noChange
  | 11 | 0 => .null
  | 1 => .int (signedInt (oneByteInt buf))
  | 2 => .int (signedInt (twoByteInt buf))
  | 3 => .int (signedInt (threeByteInt buf))
  | 4 => .int (signedInt (fourByteInt buf))
  | 5 => .int (BitVec.ofNat 64 (fourByteUint (buf.drop 2)) +
      BitVec.ofNat 64 (2 ^ 32) * signedInt (twoByteInt buf))
  | 6 => .int (eightBytes buf)
  | 7 => if isNaN (eightBytes buf) then .null else .real (eightBytes buf)
  | 8 | 9 => .int (BitVec.ofNat 64 (t - 8))
  | t =>
    let z := buf.take ((t - 12) / 2)
    if t % 2 = 1 then .str z else .blob z

/-- The loop of `sqlite3VdbeRecordUnpack` (`vdbeaux.c`, lines 4256–4269): the columns it reads, and
    where their data ends. -/
def unpackFields (key : List UInt8) (szHdr : ℕ) : ℕ → ℕ → ℕ → List Mem × ℕ
  | 0, _, d => ([], d)
  | n + 1, idx, d =>
    if idx < szHdr ∧ d ≤ key.length then
      let (t, k) := getVarint32 (key.drop idx)
      let m := sqlite3VdbeSerialGet (key.drop d) t
      let (rest, d) := unpackFields key szHdr n (idx + k) (u32 (d + sqlite3VdbeSerialTypeLen t))
      (m :: rest, d)
    else ([], d)

/-- `sqlite3VdbeRecordUnpack`, for at least one field (`vdbeaux.c`, lines 4238–4281). -/
def sqlite3VdbeRecordUnpack (key : List UInt8) (nField : ℕ) : List Mem :=
  let (szHdr, idx) := getVarint32 key
  let (fields, d) := unpackFields key szHdr nField idx szHdr
  if key.length < d ∧ fields ≠ [] then fields.dropLast ++ [.null] else fields

/-! ## Reading one column -/

/-- Why a column is not read. -/
inductive ColumnError
  | corrupt
  | tooBig
  deriving DecidableEq

/-- A cursor on a row, with what it has read of the header (`vdbeInt.h`, lines 79–139): the types,
    and the offsets of these columns and of the one after them. -/
structure VdbeCursor where
  /-- The row in the file, its overflow pages included. -/
  payload : List UInt8
  /-- How many of its bytes are on the page of the cursor (`sqlite3BtreePayloadFetch`). -/
  nLocal : ℕ
  /-- `sqlite3BtreeMaxRecordSize`. -/
  maxRecordSize : ℕ
  /-- `pKeyInfo` is 0: this is a cursor on a table. -/
  onTable : Bool
  /-- `cacheStatus` is `cacheCtr`: what follows is about this row. -/
  current : Bool
  /-- What of the row is read where it is on the page; `none` is 0. -/
  aRow : Option (List UInt8)
  aType : List ℕ
  aOffset : List ℕ
  iHdrOffset : ℕ
  /-- The large value of this row that was read last from overflow pages, with its column. -/
  pCache : Option (ℕ × List UInt8)

/-- A cursor that has moved to a row. -/
def VdbeCursor.moved (payload : List UInt8) (nLocal maxRecordSize : ℕ) (onTable : Bool) :
    VdbeCursor where
  payload := payload
  nLocal := nLocal
  maxRecordSize := maxRecordSize
  onTable := onTable
  current := false
  aRow := none
  aType := []
  aOffset := []
  iHdrOffset := 0
  pCache := none

/-- `aOffset[0]`. -/
def VdbeCursor.szHdr (c : VdbeCursor) : ℕ := c.aOffset.headD 0

/-- `pC->nHdrParsed`. -/
def VdbeCursor.nHdrParsed (c : VdbeCursor) : ℕ := c.aType.length

/-- `pC->szRow`. -/
def VdbeCursor.szRow (c : VdbeCursor) : ℕ := (c.aRow.getD []).length

/-- The first use of a row (`vdbe.c`, lines 3004–3092): the size of the header is read, and the
    header has to be on the page or must not be oversize. The jump to `op_column_read_header` is
    `true`. -/
def VdbeCursor.load (c : VdbeCursor) : Except ColumnError (VdbeCursor × Bool) :=
  let aRow := c.payload.take c.nLocal
  let (szHdr, k) := getVarint32 aRow
  let c' := { c with current := true, aType := [], aOffset := [szHdr], iHdrOffset := k }
  if aRow.length < szHdr then
    if 98307 < szHdr ∨ c.payload.length < szHdr then .error .corrupt
    else .ok ({ c' with aRow := none }, false)
  else .ok ({ c' with aRow := some aRow }, true)

/-- `sqlite3VdbeMemFromBtree` (`vdbemem.c`, lines 1272–1294). -/
def VdbeCursor.fromBtree (c : VdbeCursor) (offset amt : ℕ) : Except ColumnError (List UInt8) :=
  if c.maxRecordSize < u32 (offset + amt) then .error .corrupt
  else .ok ((c.payload.drop offset).take amt)

/-- `zData`: the page, or the header from all its pages. -/
def VdbeCursor.zData (c : VdbeCursor) : Except ColumnError (List UInt8) :=
  match c.aRow with
  | some aRow => .ok aRow
  | none => c.fromBtree 0 c.szHdr

/-- Read the next type of the header (`vdbe.c`, lines 3124–3132). -/
def VdbeCursor.readType (zData : List UInt8) (c : VdbeCursor) : VdbeCursor :=
  let b := byte zData c.iHdrOffset
  let (t, k, len) :=
    if b < 0x80 then (b, 1, smallTypeSize b)
    else
      let (t, k) := sqlite3GetVarint32 (zData.drop c.iHdrOffset)
      (t, k, sqlite3VdbeSerialTypeLen t)
  { c with
    aType := c.aType ++ [t]
    aOffset := c.aOffset ++ [c.aOffset.getLastD 0 + len]
    iHdrOffset := c.iHdrOffset + k }

/-- The loop that reads up to `n` types, at least one (`vdbe.c`, lines 3123–3133). -/
def VdbeCursor.readTypes (zData : List UInt8) : ℕ → VdbeCursor → VdbeCursor
  | 0, c => c
  | n + 1, c =>
    let c' := c.readType zData
    if c'.iHdrOffset < c.szHdr then readTypes zData n c' else c'

/-- The tests for a record that is corrupt (`vdbe.c`, lines 3140–3150). -/
def VdbeCursor.corrupt (c : VdbeCursor) : Bool :=
  let offset64 := c.aOffset.getLastD 0
  (c.szHdr ≤ c.iHdrOffset && (c.szHdr < c.iHdrOffset || offset64 != c.payload.length)) ||
    c.payload.length < offset64

/-- `op_column_read_header` (`vdbe.c`, lines 3117–3154): read the header up to column `p2`. A header
    of size 0 is taken for one without columns. -/
def VdbeCursor.readHeader (c : VdbeCursor) (p2 : ℕ) : Except ColumnError VdbeCursor := do
  let zData ← c.zData
  let c' := c.readTypes zData (p2 + 1 - c.nHdrParsed)
  if c'.corrupt then
    if c.szHdr = 0 then .ok { c with aType := [], aOffset := [0], iHdrOffset := 0 }
    else .error .corrupt
  else .ok c'

/-- A text or a blob of type `t`. -/
def textOrBlob (t : ℕ) (z : List UInt8) : Mem := if t % 2 = 1 then .str z else .blob z

/-- `vdbeColumnFromOverflow` (`vdbe.c`, lines 717–793). -/
def VdbeCursor.fromOverflow (c : VdbeCursor) (lengthLimit iCol t iOffset : ℕ) :
    Except ColumnError (Mem × VdbeCursor) :=
  let len := sqlite3VdbeSerialTypeLen t
  if lengthLimit < len then .error .tooBig
  else if 4000 < len ∧ c.onTable then
    match c.pCache.filter fun cache => cache.1 = iCol with
    | some (_, pBuf) => .ok (textOrBlob t (pBuf.take len), c)
    | none =>
      let pBuf := (c.payload.drop iOffset).take len
      .ok (textOrBlob t pBuf, { c with pCache := some (iCol, pBuf) })
  else do
    let z ← c.fromBtree iOffset len
    .ok (sqlite3VdbeSerialGet z t, c)

/-- A use of `OP_Column` for the value: the column, the default (NULL where P4 is none), and the
    size of the buffer that the output register has. -/
structure ColumnRead where
  p2 : ℕ
  dflt : Mem
  szMalloc : ℕ

/-- `OP_Column` where the type of the column has been read (`vdbe.c`, lines 3190–3251). -/
def VdbeCursor.content (c : VdbeCursor) (lengthLimit : ℕ) (read : ColumnRead) :
    Except ColumnError (Mem × VdbeCursor) :=
  let t := c.aType.getD read.p2 0
  let offset := c.aOffset.getD read.p2 0
  if c.aOffset.getD (read.p2 + 1) 0 ≤ c.szRow then
    let zData := (c.aRow.getD []).drop offset
    if t < 12 then .ok (sqlite3VdbeSerialGet zData t, c)
    else
      let len := (t - 12) / 2
      if read.szMalloc < len + 2 ∧ lengthLimit < len then .error .tooBig
      else .ok (textOrBlob t (zData.take len), c)
  -- no content to read: any bytes do
  else if sqlite3VdbeSerialTypeLen t = 0 then .ok (sqlite3VdbeSerialGet [] t, c)
  else c.fromOverflow lengthLimit read.p2 t offset

/-- The header read as far as column `p2` needs, where it has not been (`vdbe.c`, lines 3101–3157).
    -/
def VdbeCursor.parse (c : VdbeCursor) (jump : Bool) (p2 : ℕ) : Except ColumnError VdbeCursor :=
  if c.nHdrParsed ≤ p2 ∧ (jump ∨ c.iHdrOffset < c.szHdr) then c.readHeader p2 else .ok c

/-- `OP_Column` on a b-tree row (`vdbe.c`, lines 2973–3256): the register it fills, and the
    cursor. -/
def opColumn (lengthLimit : ℕ) (c : VdbeCursor) (read : ColumnRead) :
    Except ColumnError (Mem × VdbeCursor) := do
  let (c, jump) ← if c.current then .ok (c, false) else c.load
  let c ← c.parse jump read.p2
  if c.nHdrParsed ≤ read.p2 then .ok (read.dflt, c) else c.content lengthLimit read

end ProjectEvaluation.Sqlite
