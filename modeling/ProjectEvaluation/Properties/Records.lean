import ProjectEvaluation.Properties.SerialTypes
import Mathlib.Algebra.Order.BigOperators.Group.List

/-!
# Records

What `OP_MakeRecord` writes is what the readers read.

Main results:
* `record_fills`: a record fills the space that was computed for it.
* `record_round_trip`: `sqlite3VdbeRecordUnpack` gives back the values of a record.
* `columns_round_trip`: so does `OP_Column`, for columns read in any order.
-/

namespace ProjectEvaluation.Sqlite

/-! ## Whole records -/

/-- The types of columns in a header. -/
def headerBytes (fmt : ℕ) (fields : List Mem) : List UInt8 :=
  fields.flatMap fun m => typeBytes (m.serialType fmt)

/-- The payload of columns. -/
def dataBytes (fmt : ℕ) (fields : List Mem) : List UInt8 :=
  fields.flatMap fun m => m.payload (m.serialType fmt)

theorem headerBytes_append (fmt : ℕ) (fields gs : List Mem) :
    headerBytes fmt (fields ++ gs) = headerBytes fmt fields ++ headerBytes fmt gs :=
      List.flatMap_append

theorem dataBytes_append (fmt : ℕ) (fields gs : List Mem) :
    dataBytes fmt (fields ++ gs) = dataBytes fmt fields ++ dataBytes fmt gs := List.flatMap_append

theorem headerBytes_cons (fmt : ℕ) (m : Mem) (fields : List Mem) :
    headerBytes fmt (m :: fields) = typeBytes (m.serialType fmt) ++ headerBytes fmt fields :=
      List.flatMap_cons

theorem dataBytes_cons (fmt : ℕ) (m : Mem) (fields : List Mem) :
    dataBytes fmt (m :: fields) = m.payload (m.serialType fmt) ++ dataBytes fmt fields :=
      List.flatMap_cons

theorem typeBytes_pos (t : ℕ) (ht : t < 2 ^ 32) : 0 < (typeBytes t).length := by
  rw [length_typeBytes ht]
  exact varintLen_pos t

/-! ## Measured registers -/

theorem stored_stored (m : Mem) : m.stored.stored = m.stored := by
  cases m with
  | intReal i =>
    rw [Mem.stored]
    split_ifs <;> rfl
  | null | noChange | int | real | str | blob | zeroBlob => rfl

/-- What the loop does to a register leaves its type. -/
theorem prepare_serialType (fmt nData : ℕ) (m : Mem) :
    (m.prepare fmt nData).serialType fmt = m.stored.serialType fmt := by
  cases m with
  | intReal i =>
    simp only [Mem.prepare, Mem.stored, intType_eq_six]
    split_ifs <;> rfl
  | zeroBlob z nZero =>
    rw [Mem.prepare, Mem.stored]
    split_ifs
    · simp only [Mem.serialType, u32, List.length_append, List.length_replicate]
      omega
    · rfl
  | null | noChange | int | real | str | blob => rfl

/-- Zeros are left out only where nothing follows them. -/
theorem prepare_zeros (fmt nData : ℕ) (m : Mem) :
    (m.prepare fmt nData).zeros = 0 ∨ nData = 0 := by
  cases m with
  | intReal i =>
    rw [Mem.prepare]
    split_ifs <;> exact Or.inl rfl
  | zeroBlob z nZero =>
    rw [Mem.prepare]
    split_ifs with hzero
    · exact Or.inr hzero
    · exact Or.inl rfl
  | null | noChange | int | real | str | blob => exact Or.inl rfl

/-- The bytes of a text are counted. -/
theorem prepare_length (fmt nData : ℕ) (m : Mem) :
    m.stored.z.length ≤
      (m.prepare fmt nData).dataSize fmt + (m.prepare fmt nData).zeros := by
  cases m with
  | intReal i =>
    have hempty : (Mem.intReal i).stored.z = [] := by
      rw [Mem.stored]
      split_ifs <;> rfl
    rw [hempty]
    exact Nat.zero_le _
  | zeroBlob z nZero =>
    rw [Mem.prepare, Mem.stored]
    split_ifs <;> simp [Mem.z, Mem.dataSize, Mem.zeros]
  | null | noChange | int | real => exact Nat.zero_le _
  | str z | blob z => exact Nat.le_refl z.length

/-- **The payload of a register**, as far as it is written, takes the space that is counted for
    it, and zeros complete it. -/
theorem prepare_payload (fmt nData : ℕ) {m : Mem} (h : m.stored.Fits) :
    ((m.prepare fmt nData).payload (m.stored.serialType fmt)).length =
        (m.prepare fmt nData).dataSize fmt ∧
      (m.prepare fmt nData).payload (m.stored.serialType fmt) ++
          List.replicate (m.prepare fmt nData).zeros 0 =
        m.stored.payload (m.stored.serialType fmt) := by
  have hsame : ∀ m : Mem, m.Fits → m.zeros = 0 →
      (m.payload (m.serialType fmt)).length = m.dataSize fmt ∧
        m.payload (m.serialType fmt) ++
          List.replicate m.zeros 0 = m.payload (m.serialType fmt) := by
    intro m hm hzeros
    rw [hzeros]
    exact ⟨(dataSize_eq fmt hm).symm, List.append_nil _⟩
  cases m with
  | intReal i =>
    rw [Mem.stored] at h ⊢
    rw [Mem.prepare]
    by_cases hlong : 140737488355327 < unsigned i
    · rw [if_pos hlong] at h ⊢
      rw [if_pos ((intType_eq_six fmt i).mpr hlong)]
      exact hsame _ h rfl
    · rw [if_neg hlong] at h ⊢
      rw [if_neg fun hsix => hlong ((intType_eq_six fmt i).mp hsix)]
      exact hsame (.int i) h rfl
  | zeroBlob z nZero =>
    rw [Mem.prepare]
    split_ifs
    · have hsize := h.size
      have hlength : (Mem.zeroBlob z nZero).stored.z.length = z.length + nZero := by
        rw [Mem.stored, Mem.z, List.length_append, List.length_replicate]
      have htype : (Mem.zeroBlob z nZero).stored.serialType fmt = (z.length + nZero) * 2 + 12 := by
        rw [← hlength]
        exact serialType_blob fmt h
      have hempty : (z.length + nZero) * 2 + 12 < 14 → z = [] := fun hlt =>
        List.length_eq_zero_iff.mp (by omega)
      have hstored : (z.length + nZero) * 2 + 12 < 14 → (Mem.zeroBlob z nZero).stored.z = [] :=
        fun hlt => List.length_eq_zero_iff.mp (by omega)
      rw [htype, payload_text (by omega) hempty, payload_text (by omega) hstored]
      exact ⟨rfl, rfl⟩
    · exact hsame _ h rfl
  | null | noChange | int | real | str | blob => exact hsame _ h rfl

/-- The sizes bound the lengths of all texts. -/
theorem measure_length (fmt : ℕ) (fields : List Mem) :
    ∀ m ∈ fields, m.stored.z.length ≤ (measure fmt fields).2.nData +
      (measure fmt fields).2.nZero := by
  induction fields with
  | nil => exact fun m hm => absurd hm List.not_mem_nil
  | cons m fields ih =>
    intro m' hm'
    have hlength := prepare_length fmt (measure fmt fields).2.nData m
    rw [measure]
    rcases List.mem_cons.mp hm' with rfl | hrest
    · dsimp only
      omega
    · have hle := ih m' hrest
      dsimp only
      omega

/-- **The loop over the registers** computes the sizes of the header and of the payload that are
    written for the registers as it leaves them. -/
theorem measure_spec (fmt : ℕ) (fields : List Mem) (hfits : ∀ m ∈ fields, m.stored.Fits) :
    headerBytes fmt (measure fmt fields).1 = headerBytes fmt (fields.map Mem.stored) ∧
      (measure fmt fields).2.nHdr = (headerBytes fmt (fields.map Mem.stored)).length ∧
      (dataBytes fmt (measure fmt fields).1).length = (measure fmt fields).2.nData ∧
      dataBytes fmt (measure fmt fields).1 ++ List.replicate (measure fmt fields).2.nZero 0 =
        dataBytes fmt (fields.map Mem.stored) := by
  induction fields with
  | nil => exact ⟨rfl, rfl, rfl, rfl⟩
  | cons m fields ih =>
    obtain ⟨hheader, hnHdr, hlength, hdata⟩ :=
      ih fun m' hm' => hfits m' (List.mem_cons_of_mem m hm')
    obtain ⟨hsize, hpayload⟩ :=
      prepare_payload fmt (measure fmt fields).2.nData (hfits m List.mem_cons_self)
    have htype := prepare_serialType fmt (measure fmt fields).2.nData m
    have hzeros := prepare_zeros fmt (measure fmt fields).2.nData m
    rw [measure]
    dsimp only
    rw [List.map_cons, headerBytes_cons, headerBytes_cons, dataBytes_cons, dataBytes_cons, htype,
      hheader, hnHdr, headerSize_eq, htype, List.length_append, List.length_append, hsize, hlength,
      ← hpayload, ← hdata]
    refine ⟨rfl, Nat.add_comm _ _, Nat.add_comm _ _, ?_⟩
    rcases hzeros with hzero | hempty
    · rw [hzero, Nat.add_zero, List.replicate_zero, List.append_nil, List.append_assoc]
    · have hnil : dataBytes fmt (measure fmt fields).1 = [] :=
        List.length_eq_zero_iff.mp (hlength.trans hempty)
      rw [hnil, List.append_nil, List.nil_append, Nat.add_comm, List.replicate_add,
        List.append_assoc]

/-- A record with the header and the payload of its columns. -/
structure MadeOf (fmt : ℕ) (fields : List Mem) (r : MadeRecord) : Prop where
  fits : ∀ m ∈ fields, m.Fits
  bytes_eq : r.bytes = typeBytes r.nHdr ++ headerBytes fmt fields ++ dataBytes fmt fields
  header : r.header.length = r.nHdr
  payload : r.payload.length = r.nData
  nHdr : r.nHdr = (typeBytes r.nHdr).length + (headerBytes fmt fields).length
  nData : r.nData + r.nZero = (dataBytes fmt fields).length
  small : r.nHdr + (r.nData + r.nZero) < 2 ^ 31

/-- **What `OP_MakeRecord` makes.** A buffer has the size of an allocation, which may be rounded
    up, and no limit is above `SQLITE_MAX_LENGTH`. -/
theorem makeRecord_ok {applyAffinity : Char → Mem → Mem} {zAffinity : List Char}
    {szMalloc lengthLimit fmt : ℕ} {fields : List Mem} {r : MadeRecord}
    (h : makeRecord applyAffinity zAffinity szMalloc lengthLimit fmt fields = .ok r)
    (hbuffer : szMalloc ≤ 2 ^ 31 - 8) (hlimit : lengthLimit ≤ sqliteMaxLength) :
    MadeOf fmt ((applyAffinities applyAffinity zAffinity fields).map Mem.stored) r := by
  rw [makeRecord] at h
  generalize applyAffinities applyAffinity zAffinity fields = fields at h ⊢
  have hlength := measure_length fmt fields
  have hspec := measure_spec fmt fields
  generalize measure fmt fields = out at h hlength hspec
  obtain ⟨rest, nHdr, nData, nZero⟩ := out
  dsimp only at h hlength hspec
  split_ifs at h with hlarge halloc
  injection h with h
  have hpos : 0 < headerSize nHdr := headerSize_pos nHdr
  have hsmall : headerSize nHdr + (nData + nZero) ≤ 2 ^ 31 - 8 := by
    have hmax : sqliteMaxLength = 1000000000 := rfl
    omega
  have hfits : ∀ m ∈ fields, m.stored.Fits := by
    intro m hm
    have hz := hlength m hm
    exact { stored := stored_stored m, size := by omega }
  obtain ⟨hheader, hnHdr, hdata, hzeros⟩ := hspec hfits
  have hfixed : headerSize nHdr = nHdr + (typeBytes (headerSize nHdr)).length :=
    headerSize_fixed (by omega)
  have htotal := congrArg List.length hzeros
  rw [List.length_append, List.length_replicate, hdata] at htotal
  subst h
  exact
    { fits := fun m hm => by
        obtain ⟨m', hm', rfl⟩ := List.mem_map.mp hm
        exact hfits m' hm'
      bytes_eq := by
        rw [← hheader, ← hzeros, ← List.append_assoc]
        rfl
      header := by
        rw [List.length_append, Nat.add_comm]
        show (headerBytes fmt rest).length + _ = headerSize nHdr
        rw [hheader, ← hnHdr, ← hfixed]
      payload := hdata
      nHdr := by
        rw [← hnHdr, Nat.add_comm]
        exact hfixed
      nData := htotal
      small := by
        show headerSize nHdr + (nData + nZero) < 2 ^ 31
        omega }

/-- Affinities are left as they are. -/
def noAffinity (_ : Char) (m : Mem) : Mem := m

/-- The row `(7, NULL, 'ab', 3.0, zeroblob(40))`; its fourth column has reals. -/
def rowFields : List Mem := [.int 7, .null, .str [97, 98], .int 3, .zeroBlob [] 40]

/-- The affinities of its columns. -/
def rowAffinity : List Char := ['D', 'A', 'B', 'E', 'A']

/-- Its record. -/
def rowRecord : MadeRecord where
  nHdr := 6
  nData := 4
  header := [6, 1, 0, 17, 1, 92]
  payload := [7, 97, 98, 3]
  nZero := 40

theorem rowRecord_made :
    makeRecord noAffinity rowAffinity 32 1000 4 rowFields = .ok rowRecord := by
  decide +kernel

/-- **A record fills the space computed for it**: the header ends where the payload begins, the
    payload ends where the zeros begin, and the record has room in the buffer or is within the
    limit. -/
theorem record_fills {applyAffinity : Char → Mem → Mem} {zAffinity : List Char}
    {szMalloc lengthLimit fmt : ℕ} {fields : List Mem} {r : MadeRecord}
    (h : makeRecord applyAffinity zAffinity szMalloc lengthLimit fmt fields = .ok r)
    (hbuffer : szMalloc ≤ 2 ^ 31 - 8) (hlimit : lengthLimit ≤ sqliteMaxLength) :
    r.header.length = r.nHdr ∧ r.payload.length = r.nData ∧
      (r.bytes.length ≤ szMalloc ∨ r.bytes.length ≤ lengthLimit) := by
  have hmade := makeRecord_ok h hbuffer hlimit
  refine ⟨hmade.header, hmade.payload, ?_⟩
  rw [MadeRecord.bytes, List.length_append, List.length_append, List.length_replicate,
    hmade.header, hmade.payload]
  rw [makeRecord] at h
  dsimp only at h
  split_ifs at h with hlarge halloc
  injection h with h
  subst h
  dsimp only
  omega

theorem record_fills_row :
    rowRecord.header.length = rowRecord.nHdr ∧ rowRecord.payload.length = rowRecord.nData ∧
      (rowRecord.bytes.length ≤ 32 ∨ rowRecord.bytes.length ≤ 1000) :=
  record_fills rowRecord_made (by decide) (by decide)

/-! ## Reading all columns -/

/-- **The columns are read in the order of the header.** The loop is at the type of the next
    column in the header, and at its value in the payload. -/
theorem unpackFields_eq (fmt : ℕ) {key : List UInt8} (hkey : key.length < 2 ^ 32) (szHdr : ℕ)
    {fields : List Mem}
    (hfits : ∀ m ∈ fields, m.Fits) (n : ℕ) {idx d : ℕ}
    (hend : idx + (headerBytes fmt fields).length = szHdr)
    (hheader : headerBytes fmt fields <+: key.drop idx) (hdata : key.drop d = dataBytes fmt fields)
    (hd : d ≤ key.length) :
    (unpackFields key szHdr n idx d).1 = (fields.map Mem.loaded).take n ∧
      (unpackFields key szHdr n idx d).2 ≤ key.length := by
  induction n generalizing fields idx d with
  | zero => exact ⟨rfl, hd⟩
  | succ n ih =>
    rw [unpackFields]
    cases fields with
    | nil =>
      have hidx : ¬ idx < szHdr := by
        rw [← hend]
        exact Nat.lt_irrefl idx
      rw [if_neg fun h => hidx h.1]
      exact ⟨rfl, hd⟩
    | cons m fields =>
      have ht := serialType_lt fmt m
      have hm := hfits m List.mem_cons_self
      rw [headerBytes_cons] at hend hheader
      rw [dataBytes_cons] at hdata
      rw [List.length_append] at hend
      have hpos := typeBytes_pos _ ht
      obtain ⟨rest, hrest⟩ := hheader
      have htype : getVarint32 (key.drop idx) =
          (m.serialType fmt, (typeBytes (m.serialType fmt)).length) := by
        rw [← hrest, List.append_assoc]
        exact getVarint32_typeBytes ht _
      have hvalue : sqlite3VdbeSerialGet (key.drop d) (m.serialType fmt) = m.loaded := by
        rw [hdata]
        exact serialGet_payload fmt hm _
      have hlen := length_payload fmt hm
      have hsplit := congrArg List.length hdata
      rw [List.length_drop, List.length_append, hlen] at hsplit
      have hnext : u32 (d + sqlite3VdbeSerialTypeLen (m.serialType fmt)) =
          d + sqlite3VdbeSerialTypeLen (m.serialType fmt) := u32_of_lt (by omega)
      have hheader' : headerBytes fmt fields <+: key.drop
          (idx + (typeBytes (m.serialType fmt)).length) := by
        refine ⟨rest, ?_⟩
        rw [← List.drop_drop, ← hrest, List.append_assoc, List.drop_left]
      have hdata' : key.drop (d + sqlite3VdbeSerialTypeLen (m.serialType fmt)) =
          dataBytes fmt fields := by
        rw [← List.drop_drop, hdata, ← hlen, List.drop_left]
      obtain ⟨hvalues, hlast⟩ := ih (fun m' hm' => hfits m' (List.mem_cons_of_mem m hm'))
        (by omega) hheader' hdata' (by omega)
      rw [if_pos ⟨by omega, hd⟩, htype]
      dsimp only
      rw [hvalue, hnext, hvalues]
      exact ⟨rfl, hlast⟩

theorem applyAffinities_ne_nil {applyAffinity : Char → Mem → Mem} {zAffinity : List Char}
    {fields : List Mem} (h : fields ≠ []) :
    applyAffinities applyAffinity zAffinity fields ≠ [] := by
  cases fields with
  | nil => exact absurd rfl h
  | cons m fields => cases zAffinity <;> exact List.cons_ne_nil _ _

theorem map_loaded_stored (fields : List Mem) :
    (fields.map Mem.stored).map Mem.loaded = fields.map Mem.loaded := by
  rw [List.map_map]
  exact List.map_congr_left fun m _ => loaded_stored m

section Made

variable {fmt : ℕ} {fields : List Mem} {r : MadeRecord}

theorem MadeOf.length_bytes (h : MadeOf fmt fields r) :
    r.bytes.length = r.nHdr + (r.nData + r.nZero) := by
  rw [h.bytes_eq, List.length_append, List.length_append, ← h.nHdr, h.nData]

theorem MadeOf.headerSize_read (h : MadeOf fmt fields r) :
    getVarint32 r.bytes = (r.nHdr, (typeBytes r.nHdr).length) := by
  have hsmall := h.small
  rw [h.bytes_eq, List.append_assoc]
  exact getVarint32_typeBytes (by omega) _

/-- The header from the type of a column on. -/
theorem MadeOf.drop_header {read unread : List Mem} (h : MadeOf fmt (read ++ unread) r) :
    r.bytes.drop ((typeBytes r.nHdr).length + (headerBytes fmt read).length) =
      headerBytes fmt unread ++ dataBytes fmt (read ++ unread) := by
  rw [h.bytes_eq, headerBytes_append, ← List.drop_drop, List.append_assoc, List.drop_left,
    List.append_assoc, List.drop_left]

/-- The payload from a column on. -/
theorem MadeOf.drop_data {read unread : List Mem} (h : MadeOf fmt (read ++ unread) r) :
    r.bytes.drop (r.nHdr + (dataBytes fmt read).length) = dataBytes fmt unread := by
  have hnHdr := h.nHdr
  rw [h.bytes_eq, dataBytes_append, ← List.append_assoc]
  apply List.drop_left'
  rw [List.length_append, List.length_append, ← hnHdr]

/-- The payload has the value of a column at its place. -/
theorem MadeOf.column {pre post : List Mem} {m : Mem} (h : MadeOf fmt (pre ++ m :: post) r) :
    r.bytes.drop (r.nHdr + (dataBytes fmt pre).length) =
        m.payload (m.serialType fmt) ++ dataBytes fmt post ∧
      r.nHdr + (dataBytes fmt pre).length + (m.payload (m.serialType fmt)).length ≤
        r.bytes.length := by
  have hbytes := h.length_bytes
  have hdata := h.nData
  rw [dataBytes_append, dataBytes_cons, List.length_append, List.length_append] at hdata
  refine ⟨?_, by omega⟩
  rw [h.drop_data, dataBytes_cons]

end Made

/-- **A record is read back** by `sqlite3VdbeRecordUnpack`, as far as fields are asked for. -/
theorem record_round_trip {applyAffinity : Char → Mem → Mem} {zAffinity : List Char}
    {szMalloc lengthLimit fmt : ℕ} {fields : List Mem} {r : MadeRecord}
    (h : makeRecord applyAffinity zAffinity szMalloc lengthLimit fmt fields = .ok r)
    (hbuffer : szMalloc ≤ 2 ^ 31 - 8) (hlimit : lengthLimit ≤ sqliteMaxLength) (nField : ℕ) :
    sqlite3VdbeRecordUnpack r.bytes nField =
      ((applyAffinities applyAffinity zAffinity fields).map Mem.loaded).take nField := by
  have hmade := makeRecord_ok h hbuffer hlimit
  generalize applyAffinities applyAffinity zAffinity fields = fields at hmade ⊢
  have hsmall := hmade.small
  have hlength := hmade.length_bytes
  have hnone : MadeOf fmt ([] ++ fields.map Mem.stored) r := hmade
  have hheader : headerBytes fmt (fields.map Mem.stored) <+:
      r.bytes.drop (typeBytes r.nHdr).length :=
    ⟨dataBytes fmt (fields.map Mem.stored), hnone.drop_header.symm⟩
  have hdata : r.bytes.drop r.nHdr = dataBytes fmt (fields.map Mem.stored) := hnone.drop_data
  obtain ⟨hvalues, hlast⟩ := unpackFields_eq fmt (by omega) r.nHdr hmade.fits nField
    hmade.nHdr.symm hheader hdata (by omega)
  rw [sqlite3VdbeRecordUnpack, hmade.headerSize_read]
  dsimp only
  rw [if_neg fun hpast => absurd hpast.1 (by omega), hvalues, map_loaded_stored]

theorem record_round_trip_row :
    sqlite3VdbeRecordUnpack rowRecord.bytes 4 =
      ((applyAffinities noAffinity rowAffinity rowFields).map Mem.loaded).take 4 :=
  record_round_trip rowRecord_made (by decide) (by decide) 4

/-! ## Reading columns in any order -/

/-- A cursor on a record that has read the types of the columns in `read`. -/
structure VdbeCursor.Parsed (fmt : ℕ) (r : MadeRecord) (read : List Mem) (c : VdbeCursor) :
    Prop where
  payload : c.payload = r.bytes
  file : r.bytes.length ≤ c.maxRecordSize
  current : c.current = true
  /-- The page has the header, where it is read from the page. -/
  aRow : ∀ aRow, c.aRow = some aRow → aRow <+: r.bytes ∧ r.nHdr ≤ aRow.length
  aType : c.aType = read.map (Mem.serialType fmt)
  aOffset : c.aOffset =
    (List.range (read.length + 1)).map fun i => r.nHdr + (dataBytes fmt (read.take i)).length
  iHdrOffset : c.iHdrOffset = (typeBytes r.nHdr).length + (headerBytes fmt read).length
  pCache : ∀ iCol z, c.pCache = some (iCol, z) →
    ∃ m, read[iCol]? = some m ∧ z = m.payload (m.serialType fmt)

section Cursor

variable {fmt : ℕ} {r : MadeRecord} {read : List Mem} {c : VdbeCursor}

theorem VdbeCursor.Parsed.szHdr (hc : c.Parsed fmt r read) : c.szHdr = r.nHdr := by
  rw [VdbeCursor.szHdr, hc.aOffset, List.range_succ_eq_map]
  rfl

theorem VdbeCursor.Parsed.nHdrParsed (hc : c.Parsed fmt r read) : c.nHdrParsed = read.length := by
  rw [VdbeCursor.nHdrParsed, hc.aType, List.length_map]

theorem VdbeCursor.Parsed.lastOffset (hc : c.Parsed fmt r read) :
    c.aOffset.getLastD 0 = r.nHdr + (dataBytes fmt read).length := by
  rw [hc.aOffset, List.range_succ, List.map_append, List.map_singleton, List.getLastD_concat,
    List.take_length]

/-- The start of a record that has the header. -/
theorem MadeOf.header_prefix {fields : List Mem} (h : MadeOf fmt fields r) {z : List UInt8}
    (hz : z <+: r.bytes) (hlong : r.nHdr ≤ z.length) :
    ∃ rest, z = typeBytes r.nHdr ++ headerBytes fmt fields ++ rest := by
  have hheader : (typeBytes r.nHdr ++ headerBytes fmt fields).length = r.nHdr := by
    rw [List.length_append, ← h.nHdr]
  rw [List.prefix_iff_eq_take, h.bytes_eq, List.take_append,
    List.take_of_length_le (by omega)] at hz
  exact ⟨_, hz⟩

/-- **The header is read** from the page or from all its pages. -/
theorem parsed_zData {unread : List Mem} (h : MadeOf fmt (read ++ unread) r)
    (hc : c.Parsed fmt r read) :
    ∃ zData rest, c.zData = .ok zData ∧
      zData = typeBytes r.nHdr ++ headerBytes fmt (read ++ unread) ++ rest := by
  have hlen := h.length_bytes
  have hsmall := h.small
  rw [VdbeCursor.zData]
  cases haRow : c.aRow with
  | some aRow =>
    obtain ⟨hshort, hlong⟩ := hc.aRow aRow haRow
    obtain ⟨rest, hrest⟩ := h.header_prefix hshort hlong
    exact ⟨aRow, rest, rfl, hrest⟩
  | none =>
    have hfile := hc.file
    obtain ⟨rest, hrest⟩ := h.header_prefix (List.take_prefix r.nHdr r.bytes)
      (by rw [List.length_take]; omega)
    refine ⟨r.bytes.take r.nHdr, rest, ?_, hrest⟩
    have hsum : u32 (0 + r.nHdr) = r.nHdr := by
      rw [Nat.zero_add]
      exact u32_of_lt (by omega)
    show c.fromBtree 0 c.szHdr = _
    rw [VdbeCursor.fromBtree, hc.szHdr, hsum, if_neg (by omega), hc.payload, List.drop_zero]

/-- One-byte types are read as the others are. -/
theorem readType_eq (c : VdbeCursor) {zData : List UInt8} {t k : ℕ}
    (h : getVarint32 (zData.drop c.iHdrOffset) = (t, k)) :
    c.readType zData =
      { c with
        aType := c.aType ++ [t]
        aOffset := c.aOffset ++ [c.aOffset.getLastD 0 + sqlite3VdbeSerialTypeLen t]
        iHdrOffset := c.iHdrOffset + k } := by
  rw [getVarint32, byte_drop, Nat.add_zero] at h
  rw [VdbeCursor.readType]
  dsimp only
  split_ifs at h ⊢ with hone
  · obtain ⟨rfl, rfl⟩ := Prod.mk.inj h
    rw [sqlite3VdbeSerialTypeLen, if_neg (by omega)]
  · rw [h]

/-- The type of the next column. -/
theorem parsed_readType {m : Mem} {unread : List Mem} (h : MadeOf fmt (read ++ m :: unread) r)
    (hc : c.Parsed fmt r read) (rest : List UInt8) :
    (c.readType
      (typeBytes r.nHdr ++ headerBytes fmt (read ++ m :: unread) ++ rest)).Parsed fmt r
        (read ++ [m]) := by
  have ht := serialType_lt fmt m
  have hm : m.Fits := h.fits m (List.mem_append_right read List.mem_cons_self)
  have hdrop : (typeBytes r.nHdr ++ headerBytes fmt (read ++ m :: unread) ++ rest).drop
        c.iHdrOffset =
      typeBytes (m.serialType fmt) ++ (headerBytes fmt unread ++ rest) := by
    rw [hc.iHdrOffset, headerBytes_append, headerBytes_cons, ← List.drop_drop, List.append_assoc,
      List.drop_left, List.append_assoc, List.drop_left, List.append_assoc]
  have hread := getVarint32_typeBytes ht (headerBytes fmt unread ++ rest)
  rw [← hdrop] at hread
  rw [readType_eq c hread]
  exact
    { payload := hc.payload
      file := hc.file
      current := hc.current
      aRow := hc.aRow
      aType := by
        dsimp only
        rw [hc.aType, List.map_append, List.map_singleton]
      aOffset := by
        have hkept : ∀ i ∈ List.range (read.length + 1), (read ++ [m]).take i = read.take i :=
          fun i hi => List.take_append_of_le_length (Nat.le_of_lt_succ (List.mem_range.mp hi))
        have hlast : r.nHdr + (dataBytes fmt read).length +
              sqlite3VdbeSerialTypeLen (m.serialType fmt) =
            r.nHdr + (dataBytes fmt ((read ++ [m]).take (read.length + 1))).length := by
          rw [List.take_of_length_le (by simp), dataBytes_append, List.length_append,
            dataBytes_cons, List.length_append, length_payload fmt hm, Nat.add_assoc]
          rfl
        dsimp only
        rw [hc.lastOffset, hc.aOffset, List.length_append, List.length_singleton,
          List.range_succ (n := read.length + 1), List.map_append, List.map_singleton, hlast]
        refine congrArg (· ++ _) (List.map_congr_left fun i hi => ?_)
        rw [hkept i hi]
      iHdrOffset := by
        dsimp only
        rw [hc.iHdrOffset, headerBytes_append, List.length_append, headerBytes_cons,
          List.length_append, Nat.add_assoc]
        rfl
      pCache := fun iCol z hcache => by
        obtain ⟨m', hm', hz⟩ := hc.pCache iCol z hcache
        obtain ⟨hlt, -⟩ := List.getElem?_eq_some_iff.mp hm'
        exact ⟨m', by rw [List.getElem?_append_left hlt, hm'], hz⟩ }

/-- A cursor reads types until it has as many as are asked for, or all of them. -/
theorem parsed_readTypes {m : Mem} {unread : List Mem} (h : MadeOf fmt (read ++ m :: unread) r)
    (hc : c.Parsed fmt r read) (rest : List UInt8) (n : ℕ) :
    (c.readTypes (typeBytes r.nHdr ++ headerBytes fmt (read ++ m :: unread) ++ rest)
      (n + 1)).Parsed fmt r (read ++ (m :: unread).take (n + 1)) := by
  induction n generalizing read m unread c with
  | zero =>
    have hnext := parsed_readType h hc rest
    rw [VdbeCursor.readTypes]
    split_ifs
    · rw [VdbeCursor.readTypes]
      exact hnext
    · exact hnext
  | succ n ih =>
    have hnext := parsed_readType h hc rest
    have hsplit : read ++ m :: unread = (read ++ [m]) ++ unread := by
      rw [List.append_assoc, List.singleton_append]
    have hnHdr := h.nHdr
    rw [hsplit, headerBytes_append, List.length_append] at hnHdr
    rw [VdbeCursor.readTypes, hnext.iHdrOffset, hc.szHdr]
    cases unread with
    | nil =>
      have hall : headerBytes fmt [] = [] := rfl
      rw [hall, List.length_nil] at hnHdr
      rw [if_neg (by omega)]
      exact hnext
    | cons m' unread =>
      have hpos := typeBytes_pos _ (serialType_lt fmt m')
      rw [headerBytes_cons, List.length_append] at hnHdr
      rw [hsplit] at h hnext ⊢
      have hrest := ih h hnext
      rw [List.append_assoc, List.singleton_append] at hrest
      rw [if_pos (by omega)]
      exact hrest

/-- A cursor on a record finds nothing wrong with it. -/
theorem parsed_not_corrupt {unread : List Mem} (h : MadeOf fmt (read ++ unread) r)
    (hc : c.Parsed fmt r read) : c.corrupt = false := by
  have hnHdr := h.nHdr
  have hnData := h.nData
  have hlen := h.length_bytes
  rw [headerBytes_append, List.length_append] at hnHdr
  rw [dataBytes_append, List.length_append] at hnData
  rw [VdbeCursor.corrupt, hc.szHdr, hc.lastOffset, hc.iHdrOffset, hc.payload, hlen]
  cases unread with
  | nil =>
    have hheader : (headerBytes fmt []).length = 0 := rfl
    have hdata : (dataBytes fmt []).length = 0 := rfl
    have hend : r.nHdr + (dataBytes fmt read).length = r.nHdr + (r.nData + r.nZero) := by omega
    rw [hend]
    simp
    omega
  | cons m unread =>
    have hpos := typeBytes_pos _ (serialType_lt fmt m)
    rw [headerBytes_cons, List.length_append] at hnHdr
    simp
    omega

/-- Types are left in the header as long as columns are left. -/
theorem parsed_iHdrOffset {unread : List Mem} (h : MadeOf fmt (read ++ unread) r)
    (hc : c.Parsed fmt r read) : c.iHdrOffset < c.szHdr ↔ unread ≠ [] := by
  have hnHdr := h.nHdr
  rw [headerBytes_append, List.length_append] at hnHdr
  rw [hc.szHdr, hc.iHdrOffset]
  cases unread with
  | nil =>
    have hheader : (headerBytes fmt []).length = 0 := rfl
    simp
    omega
  | cons m unread =>
    have hpos := typeBytes_pos _ (serialType_lt fmt m)
    rw [headerBytes_cons, List.length_append] at hnHdr
    simp
    omega

/-- The type and the offsets of a column that has been read. -/
theorem parsed_column {pre post : List Mem} {m : Mem}
    (hc : c.Parsed fmt r (pre ++ m :: post)) :
    c.aType.getD pre.length 0 = m.serialType fmt ∧
      c.aOffset.getD pre.length 0 = r.nHdr + (dataBytes fmt pre).length ∧
      c.aOffset.getD (pre.length + 1) 0 =
        r.nHdr + (dataBytes fmt pre).length + (m.payload (m.serialType fmt)).length := by
  have hoffset : ∀ i, i < (pre ++ m :: post).length + 1 →
      c.aOffset.getD i 0 = r.nHdr + (dataBytes fmt ((pre ++ m :: post).take i)).length := by
    intro i hi
    rw [hc.aOffset, List.getD_eq_getElem?_getD, List.getElem?_map, List.getElem?_range hi,
      Option.map_some, Option.getD_some]
  have hlen : (pre ++ m :: post).length = pre.length + (post.length + 1) := List.length_append
  have htake : (pre ++ m :: post).take (pre.length + 1) = pre ++ [m] :=
    List.take_length_add_append 1
  refine ⟨?_, ?_, ?_⟩
  · rw [hc.aType]
    simp
  · rw [hoffset _ (by omega), List.take_left]
  · rw [hoffset _ (by omega), htake, dataBytes_append, List.length_append, dataBytes_cons,
      List.length_append, Nat.add_assoc]
    rfl

/-- The types of the values with many bytes are those of texts and blobs. -/
theorem text_of_large {t : ℕ} (h : 8 < sqlite3VdbeSerialTypeLen t) : 12 ≤ t := by
  have hsmall : ∀ t < 12, sqlite3VdbeSerialTypeLen t ≤ 8 := by decide
  by_contra hlt
  exact absurd (hsmall t (by omega)) (by omega)

/-- **A value is read from overflow pages**, or from what was read of them before. -/
theorem parsed_fromOverflow {pre post unread : List Mem} {m : Mem} {lengthLimit : ℕ}
    (h : MadeOf fmt (pre ++ m :: (post ++ unread)) r) (hc : c.Parsed fmt r (pre ++ m :: post))
    (hlimit : r.bytes.length ≤ lengthLimit) :
    ∃ c', c.fromOverflow lengthLimit pre.length (m.serialType fmt)
        (r.nHdr + (dataBytes fmt pre).length) = .ok (m.loaded, c') ∧
      c'.Parsed fmt r (pre ++ m :: post) := by
  have hm : m.Fits := h.fits m (List.mem_append_right pre List.mem_cons_self)
  obtain ⟨hdrop, hend⟩ := h.column
  have hlen := length_payload fmt hm
  rw [hlen] at hend
  have hvalue : sqlite3VdbeSerialGet (m.payload (m.serialType fmt)) (m.serialType fmt) =
      m.loaded := by
    have hget := serialGet_payload fmt hm []
    rwa [List.append_nil] at hget
  have hread : (c.payload.drop (r.nHdr + (dataBytes fmt pre).length)).take
      (sqlite3VdbeSerialTypeLen (m.serialType fmt)) = m.payload (m.serialType fmt) := by
    rw [hc.payload, hdrop, ← hlen, List.take_left]
  have hsmall := h.small
  have hbytes := h.length_bytes
  have hfile := hc.file
  rw [VdbeCursor.fromOverflow]
  dsimp only
  rw [if_neg (by omega)]
  split_ifs with hlarge
  · have htext : textOrBlob (m.serialType fmt) ((m.payload (m.serialType fmt)).take
        (sqlite3VdbeSerialTypeLen (m.serialType fmt))) = m.loaded := by
      have htype : 12 ≤ m.serialType fmt := text_of_large (by omega)
      rw [← hvalue, serialGet_text _ htype, ← serialTypeLen_text htype]
      rfl
    cases hcache : c.pCache.filter fun cache => cache.1 = pre.length with
    | some cache =>
      obtain ⟨iCol, pBuf⟩ := cache
      obtain ⟨hsome, hcol⟩ := Option.filter_eq_some_iff.mp hcache
      obtain rfl : iCol = pre.length := of_decide_eq_true hcol
      obtain ⟨m', hm', rfl⟩ := hc.pCache pre.length pBuf hsome
      have hsame : m' = m := by simpa using hm'.symm
      rw [hsame]
      exact ⟨c, by dsimp only; rw [htext], hc⟩
    | none =>
      rw [hread]
      refine ⟨{ c with pCache := some (pre.length, m.payload (m.serialType fmt)) }, ?_, ?_⟩
      · dsimp only
        rw [← htext, List.take_of_length_le (le_of_eq hlen)]
      · exact
          { hc with
            pCache := fun iCol z hnew => by
              obtain ⟨rfl, rfl⟩ := Prod.mk.inj (Option.some.inj hnew)
              exact ⟨m, by simp, rfl⟩ }
  · have hsum : u32 (r.nHdr + (dataBytes fmt pre).length +
        sqlite3VdbeSerialTypeLen (m.serialType fmt)) =
        r.nHdr + (dataBytes fmt pre).length + sqlite3VdbeSerialTypeLen (m.serialType fmt) :=
      u32_of_lt (by omega)
    rw [VdbeCursor.fromBtree, hsum, if_neg (by omega), hread]
    refine ⟨c, ?_, hc⟩
    show Except.ok _ = _
    rw [hvalue]

/-- The value of a column that is on the page. -/
theorem parsed_page {pre post unread : List Mem} {m : Mem}
    (h : MadeOf fmt (pre ++ m :: (post ++ unread)) r) (hc : c.Parsed fmt r (pre ++ m :: post))
    (hpage : r.nHdr + (dataBytes fmt pre).length + (m.payload (m.serialType fmt)).length ≤
      c.szRow) :
    ∃ rest, (c.aRow.getD []).drop (r.nHdr + (dataBytes fmt pre).length) =
      m.payload (m.serialType fmt) ++ rest := by
  have hpos : 0 < r.nHdr := by
    have htype := typeBytes_pos r.nHdr (by have hsmall := h.small; omega)
    have hnHdr := h.nHdr
    omega
  rw [VdbeCursor.szRow] at hpage
  cases haRow : c.aRow with
  | none =>
    rw [haRow] at hpage
    exact absurd hpage (by simp; omega)
  | some aRow =>
    rw [haRow] at hpage
    obtain ⟨hshort, -⟩ := hc.aRow aRow haRow
    rw [Option.getD_some] at hpage ⊢
    rw [List.prefix_iff_eq_take.mp hshort, List.drop_take, h.column.1, List.take_append,
      List.take_of_length_le (by omega)]
    exact ⟨_, rfl⟩

/-- **The value of a column** whose type has been read, wherever it is. -/
theorem parsed_content {pre post unread : List Mem} {m : Mem} {lengthLimit : ℕ}
    (h : MadeOf fmt (pre ++ m :: (post ++ unread)) r) (hc : c.Parsed fmt r (pre ++ m :: post))
    (hlimit : r.bytes.length ≤ lengthLimit) {use : ColumnRead} (huse : use.p2 = pre.length) :
    ∃ c', c.content lengthLimit use = .ok (m.loaded, c') ∧
      c'.Parsed fmt r (pre ++ m :: post) := by
  have hm : m.Fits := h.fits m (List.mem_append_right pre List.mem_cons_self)
  have hlen := length_payload fmt hm
  have hend := h.column.2
  obtain ⟨htype, hoffset, hnext⟩ := parsed_column hc
  rw [VdbeCursor.content, huse]
  dsimp only
  rw [htype, hoffset, hnext]
  by_cases hpage : r.nHdr + (dataBytes fmt pre).length +
      (m.payload (m.serialType fmt)).length ≤ c.szRow
  · obtain ⟨rest, hrest⟩ := parsed_page h hc hpage
    have hvalue := serialGet_payload fmt hm rest
    refine ⟨c, ?_, hc⟩
    rw [if_pos hpage, hrest]
    by_cases hnumber : m.serialType fmt < 12
    · rw [if_pos hnumber, hvalue]
    · rw [serialGet_text _ (by omega)] at hvalue
      rw [serialTypeLen_text (by omega)] at hlen
      rw [if_neg hnumber, if_neg (by omega), textOrBlob, hvalue]
  · rw [if_neg hpage]
    split_ifs with hempty
    · have hnil : m.payload (m.serialType fmt) = [] :=
        List.length_eq_zero_iff.mp (hlen.trans hempty)
      have hvalue := serialGet_payload fmt hm []
      rw [hnil, List.nil_append] at hvalue
      exact ⟨c, by rw [hvalue], hc⟩
    · exact parsed_fromOverflow h hc hlimit

/-- **The header is read on** up to a column, or to its end. -/
theorem parsed_readHeader {m : Mem} {unread : List Mem} (h : MadeOf fmt (read ++ m :: unread) r)
    (hc : c.Parsed fmt r read) {p2 n : ℕ} (hp2 : p2 = read.length + n) :
    ∃ c', c.readHeader p2 = .ok c' ∧ c'.Parsed fmt r (read ++ (m :: unread).take (n + 1)) := by
  obtain ⟨zData, rest, hzData, hheader⟩ := parsed_zData h hc
  have hcount : p2 + 1 - c.nHdrParsed = n + 1 := by
    rw [hc.nHdrParsed]
    omega
  have hnext := parsed_readTypes h hc rest n
  rw [← hheader] at hnext
  have hrest : read ++ (m :: unread).take (n + 1) ++ (m :: unread).drop (n + 1) =
      read ++ m :: unread := by
    rw [List.append_assoc, List.take_append_drop]
  have hcorrupt : (c.readTypes zData (n + 1)).corrupt = false :=
    parsed_not_corrupt (hrest.symm ▸ h) hnext
  refine ⟨c.readTypes zData (n + 1), ?_, hnext⟩
  rw [VdbeCursor.readHeader, hzData, hcount]
  show (if (c.readTypes zData (n + 1)).corrupt = true then _ else _) = _
  rw [hcorrupt, if_neg Bool.false_ne_true]

/-- The value of a column whose type has been read, or of none. -/
theorem parsed_value {unread : List Mem} (h : MadeOf fmt (read ++ unread) r)
    (hc : c.Parsed fmt r read) {lengthLimit : ℕ} (hlimit : r.bytes.length ≤ lengthLimit)
    (use : ColumnRead) (hdone : use.p2 < read.length ∨ unread = []) :
    ∃ c', (if c.nHdrParsed ≤ use.p2 then .ok (use.dflt, c) else c.content lengthLimit use) =
        Except.ok (((read ++ unread).map Mem.loaded).getD use.p2 use.dflt, c') ∧
      c'.Parsed fmt r read := by
  rw [hc.nHdrParsed]
  by_cases hpast : read.length ≤ use.p2
  · obtain rfl : unread = [] := hdone.resolve_left (by omega)
    rw [if_pos hpast, List.append_nil, List.getD_eq_default _ _ (by rwa [List.length_map])]
    exact ⟨c, rfl, hc⟩
  · obtain ⟨pre, m, post, rfl, hp2⟩ : ∃ pre m post,
        read = pre ++ m :: post ∧ use.p2 = pre.length := by
      have hlt : use.p2 < read.length := Nat.lt_of_not_le hpast
      refine ⟨read.take use.p2, read.get ⟨use.p2, hlt⟩, read.drop (use.p2 + 1), ?_,
        (List.length_take_of_le hlt.le).symm⟩
      rw [List.get_eq_getElem, List.getElem_cons_drop, List.take_append_drop]
    rw [List.append_assoc, List.cons_append] at h
    obtain ⟨c', hcontent, hc'⟩ := parsed_content h hc hlimit hp2
    refine ⟨c', ?_, hc'⟩
    rw [if_neg hpast, hcontent, hp2]
    simp

/-- **The header is read as far as a column needs**: its type has been read, or there is none. -/
theorem parsed_parse {unread : List Mem} (h : MadeOf fmt (read ++ unread) r)
    (hc : c.Parsed fmt r read) (p2 : ℕ) :
    ∃ c' read' unread', read' ++ unread' = read ++ unread ∧ c.parse false p2 = .ok c' ∧
      c'.Parsed fmt r read' ∧ (p2 < read'.length ∨ unread' = []) := by
  have hmore := parsed_iHdrOffset h hc
  rw [VdbeCursor.parse, hc.nHdrParsed]
  by_cases hread : p2 < read.length
  · rw [if_neg fun hpast => by omega]
    exact ⟨c, read, unread, rfl, rfl, hc, Or.inl hread⟩
  · cases unread with
    | nil =>
      rw [if_neg (by simpa using fun _ => hmore)]
      exact ⟨c, read, [], rfl, rfl, hc, Or.inr rfl⟩
    | cons m unread =>
      obtain ⟨n, hn⟩ := Nat.exists_eq_add_of_le (Nat.le_of_not_lt hread)
      obtain ⟨c', hheader, hc'⟩ := parsed_readHeader h hc hn
      rw [if_pos ⟨by omega, Or.inr (hmore.mpr (List.cons_ne_nil m unread))⟩]
      refine ⟨c', _, (m :: unread).drop (n + 1), ?_, hheader, hc', ?_⟩
      · rw [List.append_assoc, List.take_append_drop]
      · rw [List.length_append, List.length_take, List.drop_eq_nil_iff]
        omega

/-- **One column is read**, and the cursor stays on the record. -/
theorem opColumn_parsed {unread : List Mem} (h : MadeOf fmt (read ++ unread) r)
    (hc : c.Parsed fmt r read) {lengthLimit : ℕ} (hlimit : r.bytes.length ≤ lengthLimit)
    (use : ColumnRead) :
    ∃ c' read' unread', read' ++ unread' = read ++ unread ∧ c'.Parsed fmt r read' ∧
      opColumn lengthLimit c use =
        .ok (((read ++ unread).map Mem.loaded).getD use.p2 use.dflt, c') := by
  obtain ⟨c₁, read', unread', hsplit, hparse, hc₁, hdone⟩ := parsed_parse h hc use.p2
  rw [← hsplit] at h ⊢
  obtain ⟨c', hvalue, hc'⟩ := parsed_value h hc₁ hlimit use hdone
  refine ⟨c', read', unread', rfl, hc', ?_⟩
  rw [opColumn, if_pos hc.current]
  show (c.parse false use.p2 >>= fun c =>
    if c.nHdrParsed ≤ use.p2 then .ok (use.dflt, c) else c.content lengthLimit use) = _
  rw [hparse]
  exact hvalue

end Cursor

/-- What holds of the pages of a row: its first bytes are on the page of the cursor (`minLocal`
    and `minLeaf` are 35 or more, `btree.c`, lines 3410–3440), and the file has it. -/
structure OnPages (row : List UInt8) (nLocal maxRecordSize : ℕ) : Prop where
  start : 35 ≤ nLocal ∨ row.length ≤ nLocal
  file : row.length ≤ maxRecordSize

/-- The size of the header is on the page. -/
theorem MadeOf.headerSize_local {fmt : ℕ} {fields : List Mem} {r : MadeRecord}
    (h : MadeOf fmt fields r) {nLocal maxRecordSize : ℕ}
    (hpages : OnPages r.bytes nLocal maxRecordSize) :
    getVarint32 (r.bytes.take nLocal) = (r.nHdr, (typeBytes r.nHdr).length) := by
  have hsmall := h.small
  have hstart := hpages.start
  have hnHdr := h.nHdr
  have hbytes := h.length_bytes
  have hfive : (typeBytes r.nHdr).length ≤ 5 := by
    rw [length_typeBytes (by omega)]
    exact (varintLen_le (k := 4) (by decide)).mpr (by omega)
  rw [h.bytes_eq, List.append_assoc, List.take_append, List.take_of_length_le (by omega)]
  exact getVarint32_typeBytes (by omega) _

/-- **The first use of a row** reads the size of the header. -/
theorem load_moved {fmt : ℕ} {fields : List Mem} {r : MadeRecord} (h : MadeOf fmt fields r)
    {nLocal maxRecordSize : ℕ} (hpages : OnPages r.bytes nLocal maxRecordSize)
    (hheader : r.nHdr ≤ 98307 ∨ r.nHdr ≤ nLocal) (onTable : Bool) :
    ∃ c jump, (VdbeCursor.moved r.bytes nLocal maxRecordSize onTable).load = .ok (c, jump) ∧
      c.Parsed fmt r [] := by
  have hsmall := h.small
  have hbytes := h.length_bytes
  have hsize := h.headerSize_local hpages
  have hparsed : ∀ aRow : Option (List UInt8),
      (∀ z, aRow = some z → z <+: r.bytes ∧ r.nHdr ≤ z.length) →
      VdbeCursor.Parsed fmt r []
        { VdbeCursor.moved r.bytes nLocal maxRecordSize onTable with
          current := true
          aType := []
          aOffset := [r.nHdr]
          iHdrOffset := (typeBytes r.nHdr).length
          aRow := aRow } := fun aRow haRow =>
    { payload := rfl
      file := hpages.file
      current := rfl
      aRow := haRow
      aType := rfl
      aOffset := rfl
      iHdrOffset := rfl
      pCache := fun iCol z hcache => by cases hcache }
  by_cases hpage : (r.bytes.take nLocal).length < r.nHdr
  · have hsized : ¬ (98307 < r.nHdr ∨ r.bytes.length < r.nHdr) := by
      rw [List.length_take] at hpage
      omega
    refine ⟨_, false, ?_, hparsed none fun z hz => by cases hz⟩
    simp only [VdbeCursor.load, VdbeCursor.moved, hsize, if_pos hpage, if_neg hsized]
  · refine ⟨_, true, ?_, hparsed (some (r.bytes.take nLocal)) fun z hz => ?_⟩
    · simp only [VdbeCursor.load, VdbeCursor.moved, hsize, if_neg hpage]
    · obtain rfl := Option.some.inj hz
      exact ⟨List.take_prefix nLocal r.bytes, Nat.le_of_not_lt hpage⟩

/-- A larger header that is not on the page is taken for that of a corrupt row. -/
theorem load_oversize {fmt : ℕ} {fields : List Mem} {r : MadeRecord} (h : MadeOf fmt fields r)
    {nLocal maxRecordSize : ℕ} (hpages : OnPages r.bytes nLocal maxRecordSize)
    (hheader : 98307 < r.nHdr ∧ nLocal < r.nHdr) (onTable : Bool) :
    (VdbeCursor.moved r.bytes nLocal maxRecordSize onTable).load = .error .corrupt := by
  have hsize := h.headerSize_local hpages
  have hpage : (r.bytes.take nLocal).length < r.nHdr := by
    rw [List.length_take]
    omega
  simp only [VdbeCursor.load, VdbeCursor.moved, hsize, if_pos hpage, hheader, true_or, if_true]

/-- **A row that has columns** is used first as it is used later, once the size of its header is
    known. -/
theorem opColumn_moved {fmt : ℕ} {fields : List Mem} {r : MadeRecord} (h : MadeOf fmt fields r)
    (hsome : fields ≠ []) {c c' : VdbeCursor} {jump : Bool} (hmoved : c.current = false)
    (hload : c.load = .ok (c', jump)) (hc' : c'.Parsed fmt r []) (lengthLimit : ℕ)
    (use : ColumnRead) : opColumn lengthLimit c use = opColumn lengthLimit c' use := by
  have hnone : MadeOf fmt ([] ++ fields) r := h
  have hmore : c'.iHdrOffset < c'.szHdr := (parsed_iHdrOffset hnone hc').mpr hsome
  have hjump : c'.parse jump use.p2 = c'.parse false use.p2 := by
    simp only [VdbeCursor.parse, hmore, or_true]
  rw [opColumn, opColumn, if_neg (by rw [hmoved]; exact Bool.false_ne_true), if_pos hc'.current,
    hload]
  show (c'.parse jump use.p2 >>= fun c => _) = (c'.parse false use.p2 >>= fun c => _)
  rw [hjump]

/-- A row is read column by column. -/
def readColumns (lengthLimit : ℕ) : VdbeCursor → List ColumnRead → Except ColumnError (List Mem)
  | _, [] => .ok []
  | c, use :: uses => do
    let (m, c') ← opColumn lengthLimit c use
    let ms ← readColumns lengthLimit c' uses
    return m :: ms

/-- A cursor on a record reads column by column. -/
theorem readColumns_parsed {fmt : ℕ} {r : MadeRecord} {lengthLimit : ℕ}
    (hlimit : r.bytes.length ≤ lengthLimit) {uses : List ColumnRead} {read unread : List Mem}
    {c : VdbeCursor} (h : MadeOf fmt (read ++ unread) r) (hc : c.Parsed fmt r read) :
    readColumns lengthLimit c uses =
      .ok (uses.map fun use => ((read ++ unread).map Mem.loaded).getD use.p2 use.dflt) := by
  induction uses generalizing c read unread with
  | nil => rfl
  | cons use uses ih =>
    obtain ⟨c', read', unread', hsplit, hc', hcolumn⟩ := opColumn_parsed h hc hlimit use
    have hrest := ih (by rwa [hsplit]) hc'
    rw [readColumns, hcolumn]
    show (readColumns lengthLimit c' uses >>= fun ms => .ok (_ :: ms)) = _
    rw [hrest, hsplit]
    rfl

/-- **Columns are read back in any order**, once or again, from the page or from overflow pages,
    and a column the record does not have reads as its default. A header that is not on the page
    of the cursor has 98307 bytes at most. -/
theorem columns_round_trip {applyAffinity : Char → Mem → Mem} {zAffinity : List Char}
    {szMalloc lengthLimit fmt : ℕ} {fields : List Mem} {r : MadeRecord}
    (h : makeRecord applyAffinity zAffinity szMalloc lengthLimit fmt fields = .ok r)
    (hbuffer : szMalloc ≤ 2 ^ 31 - 8) (hlimit : lengthLimit ≤ sqliteMaxLength)
    (hsome : fields ≠ []) {nLocal maxRecordSize : ℕ}
    (hpages : OnPages r.bytes nLocal maxRecordSize)
    (hheader : r.nHdr ≤ 98307 ∨ r.nHdr ≤ nLocal) (onTable : Bool) {readLimit : ℕ}
    (hread : r.bytes.length ≤ readLimit) (uses : List ColumnRead) :
    readColumns readLimit (VdbeCursor.moved r.bytes nLocal maxRecordSize onTable) uses =
      .ok (uses.map fun use =>
        ((applyAffinities applyAffinity zAffinity fields).map Mem.loaded).getD
          use.p2 use.dflt) := by
  have hmade := makeRecord_ok h hbuffer hlimit
  have hfields : (applyAffinities applyAffinity zAffinity fields).map Mem.stored ≠ [] := by
    rw [Ne, List.map_eq_nil_iff]
    exact applyAffinities_ne_nil hsome
  obtain ⟨c, jump, hload, hc⟩ := load_moved hmade hpages hheader onTable
  rw [← map_loaded_stored]
  have hfirst : MadeOf fmt ([] ++
      (applyAffinities applyAffinity zAffinity fields).map Mem.stored) r :=
    hmade
  refine Eq.trans ?_ (readColumns_parsed hread hfirst hc)
  cases uses with
  | nil => rfl
  | cons use uses => rw [readColumns, readColumns, opColumn_moved hmade hfields rfl hload hc]

theorem columns_round_trip_row :
    readColumns 1000 (VdbeCursor.moved rowRecord.bytes 35 512 true)
        [⟨2, .null, 0⟩, ⟨4, .null, 0⟩, ⟨0, .null, 0⟩, ⟨9, .int 9, 0⟩, ⟨2, .null, 0⟩] =
      .ok ([⟨2, .null, 0⟩, ⟨4, .null, 0⟩, ⟨0, .null, 0⟩, ⟨9, .int 9, 0⟩, ⟨2, .null, 0⟩].map
        fun use : ColumnRead =>
          ((applyAffinities noAffinity rowAffinity rowFields).map Mem.loaded).getD
            use.p2 use.dflt) :=
  columns_round_trip rowRecord_made (by decide) (by decide) (by decide)
    { start := by decide, file := by decide } (by decide) true (by decide) _

end ProjectEvaluation.Sqlite
