import Mathlib.Data.UInt

/-!
# Variable-length integers (`util.c`)

A 64-bit number is written in one to nine bytes, seven bits in a byte and the highest first;
every byte but the last has its high bit set, and the ninth byte holds eight bits.
`sqlite3GetVarint` reads them with two 32-bit registers that take every other byte; here it is
one function for each place where it may return.

Words are numbers; `u32` cuts them to 32 bits. A byte that is not there reads as 0.
-/

namespace ProjectEvaluation.Sqlite

/-- The conversion to `u32`. -/
def u32 (n : ℕ) : ℕ := n % 2 ^ 32

/-- `p[i]`. -/
def byte (p : List UInt8) (i : ℕ) : ℕ := (p.getD i 0).toNat

/-! ## Writing -/

/-- Seven bits of a number, with the high bit set (`util.c`, lines 1194 and 1201). -/
def varintGroup (v : ℕ) : UInt8 := UInt8.ofNat ((v &&& 0x7f) ||| 0x80)

/-- The loop that fills `p[n - 1]` to `p[0]` (`util.c`, lines 1193–1196). -/
def putGroups : ℕ → ℕ → List UInt8 → List UInt8
  | 0, _, p => p
  | n + 1, v, p => putGroups n (v >>> 7) (varintGroup v :: p)

/-- The loop that fills `buf`, which has `places` bytes left (`util.c`, lines 1200–1208). -/
def varintGroups : ℕ → ℕ → List UInt8
  | 0, _ => []
  | places + 1, v => varintGroup v :: if v >>> 7 = 0 then [] else varintGroups places (v >>> 7)

/-- `putVarint64` (`util.c`, lines 1187–1210). -/
def putVarint64 (v : ℕ) : List UInt8 :=
  if v &&& 0xff000000 <<< 32 ≠ 0 then putGroups 8 (v >>> 8) [UInt8.ofNat v]
  else
    match varintGroups 10 v with
    | [] => []
    | b :: buf => ((b &&& 0x7f) :: buf).reverse

/-- `sqlite3PutVarint` (`util.c`, lines 1211–1222): the bytes it writes. -/
def sqlite3PutVarint (v : ℕ) : List UInt8 :=
  if v ≤ 0x7f then [UInt8.ofNat (v &&& 0x7f)]
  else if v ≤ 0x3fff then [UInt8.ofNat ((v >>> 7 &&& 0x7f) ||| 0x80), UInt8.ofNat (v &&& 0x7f)]
  else putVarint64 v

/-- The loop of `sqlite3VarintLen` (`util.c`, line 1437). -/
def varintLenFrom : ℕ → ℕ → ℕ → ℕ
  | 0, _, i => i
  | rounds + 1, v, i => if v >>> 7 = 0 then i else varintLenFrom rounds (v >>> 7) (i + 1)

/-- `sqlite3VarintLen` (`util.c`, lines 1435–1439). No `u64` is left after ten rounds. -/
def sqlite3VarintLen (v : ℕ) : ℕ := varintLenFrom 10 v 1

/-! ## Reading -/

/-- `SLOT_2_0` (`util.c`, line 1233). -/
def slot20 : ℕ := 0x001fc07f

/-- `SLOT_4_2_0` (`util.c`, line 1234). -/
def slot420 : ℕ := 0xf01fc07f

/-- The return with 9 bytes (`util.c`, lines 1369–1388). -/
def getVarint9 (p : List UInt8) (a b s : ℕ) : ℕ × ℕ :=
  let a := u32 (a <<< 15) ||| byte p 8
  let b := u32 ((b &&& slot20) <<< 8)
  let s := u32 (s <<< 4) ||| (byte p 4 &&& 0x7f) >>> 3
  (s <<< 32 ||| (a ||| b), 9)

/-- The return with 8 bytes (`util.c`, lines 1351–1367). -/
def getVarint8 (p : List UInt8) (a b s : ℕ) : ℕ × ℕ :=
  let b := u32 (b <<< 14) ||| byte p 7
  if b &&& 0x80 = 0 then ((s >>> 4) <<< 32 ||| (u32 (a <<< 7) ||| (b &&& slot420)), 8)
  else getVarint9 p a b s

/-- The return with 7 bytes (`util.c`, lines 1336–1349). -/
def getVarint7 (p : List UInt8) (a b s : ℕ) : ℕ × ℕ :=
  let a := u32 (a <<< 14) ||| byte p 6
  if a &&& 0x80 = 0 then ((s >>> 11) <<< 32 ||| ((a &&& slot420) ||| u32 ((b &&& slot20) <<< 7)), 7)
  else getVarint8 p (a &&& slot20) b s

/-- The return with 6 bytes (`util.c`, lines 1315–1334). -/
def getVarint6 (p : List UInt8) (a b s : ℕ) : ℕ × ℕ :=
  let b := u32 (b <<< 14) ||| byte p 5
  if b &&& 0x80 = 0 then ((s >>> 18) <<< 32 ||| (u32 ((a &&& slot20) <<< 7) ||| b), 6)
  else getVarint7 p a b s

/-- The return with 5 bytes (`util.c`, lines 1289–1313). -/
def getVarint5 (p : List UInt8) (a b s : ℕ) : ℕ × ℕ :=
  let a := u32 (a <<< 14) ||| byte p 4
  if a &&& 0x80 = 0 then ((s >>> 18) <<< 32 ||| (a ||| u32 (b <<< 7)), 5)
  else getVarint6 p a b (u32 (s <<< 7) ||| b)

/-- The return with 4 bytes (`util.c`, lines 1272–1287). -/
def getVarint4 (p : List UInt8) (a b : ℕ) : ℕ × ℕ :=
  let b := u32 (b <<< 14) ||| byte p 3
  if b &&& 0x80 = 0 then (u32 (a <<< 7) ||| (b &&& slot20), 4)
  else getVarint5 p a (b &&& slot20) a

/-- The return with 3 bytes (`util.c`, lines 1257–1270). -/
def getVarint3 (p : List UInt8) (a b : ℕ) : ℕ × ℕ :=
  let a := a ||| byte p 2
  if a &&& 0x80 = 0 then ((a &&& slot20) ||| u32 ((b &&& 0x7f) <<< 7), 3)
  else getVarint4 p (a &&& slot20) b

/-- `sqlite3GetVarint` (`util.c`, lines 1241–1389): the number that `p` starts with, and its length.
    -/
def sqlite3GetVarint (p : List UInt8) : ℕ × ℕ :=
  if byte p 0 < 0x80 then (byte p 0, 1)
  else if byte p 1 < 0x80 then (u32 ((byte p 0 &&& 0x7f) <<< 7) ||| byte p 1, 2)
  else getVarint3 p (u32 (byte p 0 <<< 14)) (byte p 1)

/-- `sqlite3GetVarint32` (`util.c`, lines 1402–1429). -/
def sqlite3GetVarint32 (p : List UInt8) : ℕ × ℕ :=
  if byte p 1 &&& 0x80 = 0 then ((byte p 0 &&& 0x7f) <<< 7 ||| byte p 1, 2)
  else if byte p 2 &&& 0x80 = 0
    then ((byte p 0 &&& 0x7f) <<< 14 ||| (byte p 1 &&& 0x7f) <<< 7 ||| byte p 2, 3)
  else
    let (v64, n) := sqlite3GetVarint p
    (if v64 &&& 0xffffffff ≠ v64 then 0xffffffff else v64, n)

/-- The macro `getVarint32` (`sqliteInt.h`, lines 5344–5345). -/
def getVarint32 (p : List UInt8) : ℕ × ℕ :=
  if byte p 0 < 0x80 then (byte p 0, 1) else sqlite3GetVarint32 p

end ProjectEvaluation.Sqlite
