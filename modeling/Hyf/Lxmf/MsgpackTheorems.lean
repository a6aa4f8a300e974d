import Mathlib.Tactic.IntervalCases
import Hyf.Lxmf.MsgpackCursor

/-!
# The skipper accepts exactly the MessagePack grammar

What follows a marker is either nothing, a number of fixed width, or a length and a body. The bodies
are skipped by `skipBody`, one clause for each family, and every marker of a family is the header of
`Msgpack.header`. Soundness (`yields_skipValue`) and completeness (`reads_skipValue`) are then both
inductions on the number of levels left, and everything else about raw values follows from the pair.
-/

namespace Hyf.Lxmf

open ByteCodec CursorM Msgpack

/-- The decoder's slices take exactly what they are asked for. -/
theorem takesSlices : TakesSlices readSlice := takesSlices_takeSlice _ _

/-! ## Lengths -/

/-- A length of 32 bits is read from its big-endian bytes. -/
theorem reads_readU32AsUsize {value : ℕ} (h : value < 256 ^ 4) :
    Reads readU32AsUsize (toBe 4 value) value := by
  have hvalue : (UInt32.ofNat value).toNat = value := by
    rw [UInt32.toNat_ofNat', Nat.mod_eq_of_lt (by omega)]
  have hread := takesSlices.reads_readU32 (UInt32.ofNat value)
  rw [hvalue] at hread
  have hbind : Reads readU32AsUsize (toBe 4 value ++ []) value := by
    apply hread.bind
    refine Reads.check (rejectIf_eq_ok ?_) ?_
    · rw [hvalue, usizeMax]
      omega
    · rw [hvalue]
      exact Reads.pure value
  rwa [List.append_nil] at hbind

/-- A length that was read has four bytes. -/
theorem yields_readU32AsUsize :
    Yields readU32AsUsize fun value read => value < 256 ^ 4 ∧ read = toBe 4 value := by
  apply takesSlices.yields_readU32.bind
  rintro value _ rfl
  refine Yields.check (ends_rejectIf _ _) fun _ _ => ?_
  exact Yields.pure ⟨value.toNat_lt, List.append_nil _⟩

section

variable {α : Type} {body : ℕ → CursorM LxmfError α} {a : α}

/-- A body behind a length of one byte. -/
theorem reads_sized8 {len : ℕ} {bytes : List UInt8} (hlen : len < 256 ^ 1)
    (h : Reads (body len) bytes a) :
    Reads (do let len ← readU8 readSlice; body len.toNat) (toBe 1 len ++ bytes) a := by
  have hvalue : (UInt8.ofNat len).toNat = len := by
    rw [UInt8.toNat_ofNat', Nat.mod_eq_of_lt (by omega)]
  have hread := takesSlices.reads_readU8 (UInt8.ofNat len)
  rw [← toBe_one, hvalue] at hread
  exact hread.bind (hvalue.symm ▸ h)

/-- A body behind a length of two bytes. -/
theorem reads_sized16 {len : ℕ} {bytes : List UInt8} (hlen : len < 256 ^ 2)
    (h : Reads (body len) bytes a) :
    Reads (do let len ← readU16 readSlice; body len.toNat) (toBe 2 len ++ bytes) a := by
  have hvalue : (UInt16.ofNat len).toNat = len := by
    rw [UInt16.toNat_ofNat', Nat.mod_eq_of_lt (by omega)]
  have hread := takesSlices.reads_readU16 (UInt16.ofNat len)
  rw [hvalue] at hread
  exact hread.bind (hvalue.symm ▸ h)

/-- A body behind a length of four bytes. -/
theorem reads_sized32 {len : ℕ} {bytes : List UInt8} (hlen : len < 256 ^ 4)
    (h : Reads (body len) bytes a) :
    Reads (do let len ← readU32AsUsize; body len) (toBe 4 len ++ bytes) a :=
  (reads_readU32AsUsize hlen).bind h

/-- A length of `width` bytes and then a body of that length. -/
def SizedBody (width : ℕ) (Q : ℕ → α → List UInt8 → Prop) (a : α) (read : List UInt8) : Prop :=
  ∃ len < 256 ^ width, ∃ bytes, read = toBe width len ++ bytes ∧ Q len a bytes

variable {Q : ℕ → α → List UInt8 → Prop}

/-- What was read behind a length of one byte is such a length and its body. -/
theorem yields_sized8 (h : ∀ len, Yields (body len) (Q len)) :
    Yields (do let len ← readU8 readSlice; body len.toNat) (SizedBody 1 Q) := by
  apply takesSlices.yields_readU8.bind
  rintro len _ rfl
  refine (h len.toNat).mono fun a bytes hQ => ?_
  exact ⟨len.toNat, len.toNat_lt, bytes, by rw [toBe_one], hQ⟩

/-- What was read behind a length of two bytes is such a length and its body. -/
theorem yields_sized16 (h : ∀ len, Yields (body len) (Q len)) :
    Yields (do let len ← readU16 readSlice; body len.toNat) (SizedBody 2 Q) := by
  apply takesSlices.yields_readU16.bind
  rintro len _ rfl
  refine (h len.toNat).mono fun a bytes hQ => ?_
  exact ⟨len.toNat, len.toNat_lt, bytes, rfl, hQ⟩

/-- What was read behind a length of four bytes is such a length and its body. -/
theorem yields_sized32 (h : ∀ len, Yields (body len) (Q len)) :
    Yields (do let len ← readU32AsUsize; body len) (SizedBody 4 Q) := by
  apply yields_readU32AsUsize.bind
  rintro len _ ⟨hlen, rfl⟩
  refine (h len).mono fun a bytes hQ => ?_
  exact ⟨len, hlen, bytes, rfl, hQ⟩

end

/-! ## Bodies -/

/-- What is skipped behind the header of a family. -/
def skipBody (skipItem : CursorM LxmfError Unit) : Family → ℕ → CursorM LxmfError Unit
  | .str, len => skipLen len
  | .bin, len => skipLen len
  | .ext, len => skipExt len
  | .array, len => skipArray skipItem len
  | .map, len => skipMap skipItem len

/-- The values of the grammar with at most `levels` levels. -/
def Admits (levels : ℕ) (value : Value) : Prop := value.WellFormed ∧ value.depth ≤ levels

/-- The bodies of a family, whose items have at most `levels` levels. -/
def BodyOf (levels : ℕ) : Family → ℕ → List UInt8 → Prop
  | .str, len, bytes => bytes.length = len
  | .bin, len, bytes => bytes.length = len
  | .ext, len, bytes => ∃ type data, bytes = [type] ++ data ∧ data.length = len
  | .array, len, bytes => ∃ items : List Value, items.length = len ∧
      (∀ item ∈ items, Admits levels item) ∧ bytes = encodeItems items
  | .map, len, bytes => ∃ entries : List (Value × Value), entries.length = len ∧
      (∀ entry ∈ entries, Admits levels entry.1 ∧ Admits levels entry.2) ∧
      bytes = encodeEntries entries

/-- As many bytes are skipped as asked for. -/
theorem yields_skipLen (len : ℕ) : Yields (skipLen len) fun _ bytes => bytes.length = len := by
  apply (takesSlices.yields len).bind
  rintro _ bytes ⟨rfl, hlen⟩
  apply Yields.pure
  rwa [List.append_nil]

/-- Any bytes of that number are skipped. -/
theorem reads_skipLen (bytes : List UInt8) : Reads (skipLen bytes.length) bytes () :=
  (takesSlices.reads bytes).map fun _ => ()

/-- An extension is a type byte and its data. -/
theorem yields_skipExt (len : ℕ) : Yields (skipExt len) fun _ bytes =>
    ∃ type data, bytes = [type] ++ data ∧ data.length = len := by
  apply (yields_skipLen 1).bind
  intro _ first hfirst
  obtain ⟨type, rfl⟩ := List.length_eq_one_iff.mp hfirst
  exact (yields_skipLen len).mono fun _ data hdata => ⟨type, data, rfl, hdata⟩

/-- A type byte and data of that number are skipped. -/
theorem reads_skipExt (type : UInt8) (data : List UInt8) :
    Reads (skipExt data.length) ([type] ++ data) () :=
  (reads_skipLen [type]).bind (reads_skipLen data)

section

variable {skipItem : CursorM LxmfError Unit} {levels : ℕ}

/-- What was skipped as an array is so many values. -/
theorem yields_skipArray
    (h : Yields skipItem fun _ bytes => ∃ value, Admits levels value ∧ bytes = value.encode)
    (len : ℕ) : Yields (skipArray skipItem len) fun _ bytes => BodyOf levels .array len bytes := by
  induction len with
  | zero => exact Yields.pure ⟨[], rfl, by simp, rfl⟩
  | succ len ih =>
    apply h.bind
    rintro _ _ ⟨item, hitem, rfl⟩
    apply ih.mono
    rintro _ _ ⟨items, rfl, hitems, rfl⟩
    exact ⟨item :: items, rfl, by simpa using ⟨hitem, hitems⟩, by rw [encodeItems]⟩

/-- What was skipped as a map is so many pairs of values. -/
theorem yields_skipMap
    (h : Yields skipItem fun _ bytes => ∃ value, Admits levels value ∧ bytes = value.encode)
    (len : ℕ) : Yields (skipMap skipItem len) fun _ bytes => BodyOf levels .map len bytes := by
  induction len with
  | zero => exact Yields.pure ⟨[], rfl, by simp, rfl⟩
  | succ len ih =>
    apply h.bind
    rintro _ _ ⟨key, hkey, rfl⟩
    apply h.bind
    rintro _ _ ⟨value, hvalue, rfl⟩
    apply ih.mono
    rintro _ _ ⟨entries, rfl, hentries, rfl⟩
    refine ⟨(key, value) :: entries, rfl, ?_, ?_⟩
    · rw [List.forall_mem_cons]
      exact ⟨⟨hkey, hvalue⟩, hentries⟩
    · rw [encodeEntries, encodeEntry, List.append_assoc]

/-- What was skipped is a body of its family. -/
theorem yields_skipBody
    (h : Yields skipItem fun _ bytes => ∃ value, Admits levels value ∧ bytes = value.encode)
    (family : Family) (len : ℕ) :
    Yields (skipBody skipItem family len) fun _ bytes => BodyOf levels family len bytes := by
  cases family with
  | str => exact yields_skipLen len
  | bin => exact yields_skipLen len
  | ext => exact yields_skipExt len
  | array => exact yields_skipArray h len
  | map => exact yields_skipMap h len

/-- An array is skipped if its items are. -/
theorem reads_skipArray {items : List Value} (h : ∀ item ∈ items, Reads skipItem item.encode ()) :
    Reads (skipArray skipItem items.length) (encodeItems items) () := by
  induction items with
  | nil => exact Reads.pure ()
  | cons item items ih =>
    rw [List.forall_mem_cons] at h
    rw [encodeItems]
    exact h.1.bind (ih h.2)

/-- A map is skipped if its keys and values are. -/
theorem reads_skipMap {entries : List (Value × Value)}
    (h : ∀ entry ∈ entries, Reads skipItem entry.1.encode () ∧ Reads skipItem entry.2.encode ()) :
    Reads (skipMap skipItem entries.length) (encodeEntries entries) () := by
  induction entries with
  | nil => exact Reads.pure ()
  | cons entry entries ih =>
    obtain ⟨key, value⟩ := entry
    rw [List.forall_mem_cons] at h
    rw [encodeEntries, encodeEntry, List.append_assoc]
    exact h.1.1.bind (h.1.2.bind (ih h.2))

/-! ## Markers -/

/-- The low bits of a short map's marker are its length. -/
theorem fixmap_marker (marker : UInt8) : 0x80 ≤ marker ∧ marker ≤ 0x8f →
    (marker &&& 0x0f).toNat < 16 ∧ UInt8.ofNat (0x80 + (marker &&& 0x0f).toNat) = marker := by
  revert marker
  apply forall_byte
  decide

/-- The low bits of a short array's marker are its length. -/
theorem fixarray_marker (marker : UInt8) : 0x90 ≤ marker ∧ marker ≤ 0x9f →
    (marker &&& 0x0f).toNat < 16 ∧ UInt8.ofNat (0x90 + (marker &&& 0x0f).toNat) = marker := by
  revert marker
  apply forall_byte
  decide

/-- The low bits of a short string's marker are its length. -/
theorem fixstr_marker (marker : UInt8) : 0xa0 ≤ marker ∧ marker ≤ 0xbf →
    (marker &&& 0x1f).toNat < 32 ∧ UInt8.ofNat (0xa0 + (marker &&& 0x1f).toNat) = marker := by
  revert marker
  apply forall_byte
  decide

/-- The header in which a length follows the marker. -/
theorem sized_eq {marker : UInt8} {width len : ℕ} (h : len < 256 ^ width) :
    sized marker width len = some ([marker] ++ toBe width len) := by
  rw [sized, if_pos h]

/-- A sized header is a marker and a length that fits its width. -/
theorem sized_eq_some {marker : UInt8} {width len : ℕ} {bytes : List UInt8}
    (h : sized marker width len = some bytes) :
    len < 256 ^ width ∧ bytes = [marker] ++ toBe width len := by
  unfold sized at h
  split_ifs at h with hlen
  cases h
  exact ⟨hlen, rfl⟩

/-- The marker and what follows it are a value that announces a length. -/
def Announced (levels : ℕ) (marker : UInt8) (read : List UInt8) : Prop :=
  ∃ family form len tail bytes, header family form len = some ([marker] ++ tail) ∧
    read = tail ++ bytes ∧ BodyOf levels family len bytes

/-- The marker and what follows it are a value of the grammar. -/
def ValueBehind (levels : ℕ) (marker : UInt8) (read : List UInt8) : Prop :=
  ∃ value, Admits (levels + 1) value ∧ [marker] ++ read = value.encode

/-- What a header announces is the rest of a value. -/
theorem Announced.valueBehind {marker : UInt8} {read : List UInt8}
    (h : Announced levels marker read) : ValueBehind levels marker read := by
  obtain ⟨family, form, len, tail, bytes, hheader, rfl, hbody⟩ := h
  cases family with
  | str =>
    obtain rfl : bytes.length = len := hbody
    refine ⟨.str form bytes, ⟨.str (by rw [hheader]; rfl), Nat.le_add_left 1 levels⟩, ?_⟩
    rw [Value.encode, hheader, Option.getD_some, List.append_assoc]
  | bin =>
    obtain rfl : bytes.length = len := hbody
    refine ⟨.bin form bytes, ⟨.bin (by rw [hheader]; rfl), Nat.le_add_left 1 levels⟩, ?_⟩
    rw [Value.encode, hheader, Option.getD_some, List.append_assoc]
  | ext =>
    obtain ⟨type, data, rfl, rfl⟩ := hbody
    refine ⟨.ext form type data, ⟨.ext type (by rw [hheader]; rfl), Nat.le_add_left 1 levels⟩, ?_⟩
    rw [Value.encode, hheader, Option.getD_some, List.append_assoc]
  | array =>
    obtain ⟨items, rfl, hitems, rfl⟩ := hbody
    refine ⟨.array form items, ⟨.array (by rw [hheader]; rfl) fun item hmem => (hitems item hmem).1,
      ?_⟩, ?_⟩
    · rw [Value.depth, Nat.add_le_add_iff_right, depthItems_le_iff]
      exact fun item hmem => (hitems item hmem).2
    · rw [Value.encode, hheader, Option.getD_some, List.append_assoc]
  | map =>
    obtain ⟨entries, rfl, hentries, rfl⟩ := hbody
    refine ⟨.map form entries, ⟨.map (by rw [hheader]; rfl)
      (fun entry hmem => (hentries entry hmem).1.1) fun entry hmem => (hentries entry hmem).2.1, ?_⟩,
      ?_⟩
    · rw [Value.depth, Nat.add_le_add_iff_right, depthEntries_le_iff]
      exact fun entry hmem => ⟨(hentries entry hmem).1.2, (hentries entry hmem).2.2⟩
    · rw [Value.encode, hheader, Option.getD_some, List.append_assoc]

/-- A body whose length stands in the marker. -/
theorem valueBehind_fixed {marker : UInt8} {family : Family} {len : ℕ} {read : List UInt8}
    (hheader : header family .fixed len = some [marker]) (hbody : BodyOf levels family len read) :
    ValueBehind levels marker read :=
  Announced.valueBehind ⟨family, .fixed, len, [], read, hheader, rfl, hbody⟩

/-- A body whose length follows the marker. -/
theorem valueBehind_sized (form : LengthForm) {marker : UInt8} {family : Family} {width : ℕ}
    {read : List UInt8} (hheader : ∀ len, header family form len = sized marker width len) {α : Type}
    {a : α} (h : SizedBody width (fun len _ bytes => BodyOf levels family len bytes) a read) :
    ValueBehind levels marker read := by
  obtain ⟨len, hlen, bytes, rfl, hbody⟩ := h
  exact Announced.valueBehind
    ⟨family, form, len, toBe width len, bytes, by rw [hheader, sized_eq hlen], rfl, hbody⟩

/-- The bytes behind a number's marker are its bits. -/
theorem valueBehind_number (kind : NumberKind) {read : List UInt8} (h : read.length = kind.width) :
    ValueBehind levels kind.marker read := by
  have hlt := ofBe_lt read
  have hbytes := toBe_ofBe read
  rw [h] at hlt hbytes
  refine ⟨.number kind (ofBe read), ⟨.number hlt, Nat.le_add_left 1 levels⟩, ?_⟩
  rw [Value.encode, hbytes]

/-- **Soundness of one marker**: what is skipped behind it makes a value of the grammar. -/
theorem yields_skipMarker
    (h : Yields skipItem fun _ bytes => ∃ value, Admits levels value ∧ bytes = value.encode)
    (marker : UInt8) :
    Yields (skipMarker skipItem marker) fun _ read => ValueBehind levels marker read := by
  have hbody := yields_skipBody h
  unfold skipMarker
  -- one branch of the source after the other; in each the marker is known
  refine Yields.ite (fun hscalar => ?_) fun _ => ?_
  · apply Yields.pure
    rcases hscalar with hpositive | hnegative | rfl | rfl | rfl
    · exact ⟨.fixint marker, ⟨.fixint (.inl hpositive), Nat.le_add_left 1 levels⟩, rfl⟩
    · exact ⟨.fixint marker, ⟨.fixint (.inr hnegative), Nat.le_add_left 1 levels⟩, rfl⟩
    · exact ⟨.nil, ⟨.nil, Nat.le_add_left 1 levels⟩, rfl⟩
    · exact ⟨.boolean false, ⟨.boolean false, Nat.le_add_left 1 levels⟩, rfl⟩
    · exact ⟨.boolean true, ⟨.boolean true, Nat.le_add_left 1 levels⟩, rfl⟩
  refine Yields.ite (fun hfixmap => ?_) fun _ => ?_
  · obtain ⟨hlt, hmarker⟩ := fixmap_marker marker hfixmap
    exact (hbody .map _).mono fun _ _ hread =>
      valueBehind_fixed (by rw [header, if_pos hlt, hmarker]) hread
  refine Yields.ite (fun hfixarray => ?_) fun _ => ?_
  · obtain ⟨hlt, hmarker⟩ := fixarray_marker marker hfixarray
    exact (hbody .array _).mono fun _ _ hread =>
      valueBehind_fixed (by rw [header, if_pos hlt, hmarker]) hread
  refine Yields.ite (fun hfixstr => ?_) fun _ => ?_
  · obtain ⟨hlt, hmarker⟩ := fixstr_marker marker hfixstr
    exact (hbody .str _).mono fun _ _ hread =>
      valueBehind_fixed (by rw [header, if_pos hlt, hmarker]) hread
  refine Yields.ite (fun hlen8 => ?_) fun _ => ?_
  · rcases hlen8 with rfl | rfl
    · exact (yields_sized8 (hbody .bin)).mono fun _ _ => valueBehind_sized .len8 fun _ => rfl
    · exact (yields_sized8 (hbody .str)).mono fun _ _ => valueBehind_sized .len8 fun _ => rfl
  refine Yields.ite (fun hlen16 => ?_) fun _ => ?_
  · rcases hlen16 with rfl | rfl
    · exact (yields_sized16 (hbody .bin)).mono fun _ _ => valueBehind_sized .len16 fun _ => rfl
    · exact (yields_sized16 (hbody .str)).mono fun _ _ => valueBehind_sized .len16 fun _ => rfl
  refine Yields.ite (fun hlen32 => ?_) fun _ => ?_
  · rcases hlen32 with rfl | rfl
    · exact (yields_sized32 (hbody .bin)).mono fun _ _ => valueBehind_sized .len32 fun _ => rfl
    · exact (yields_sized32 (hbody .str)).mono fun _ _ => valueBehind_sized .len32 fun _ => rfl
  refine Yields.ite (fun hext8 => ?_) fun _ => ?_
  · subst hext8
    exact (yields_sized8 (hbody .ext)).mono fun _ _ => valueBehind_sized .len8 fun _ => rfl
  refine Yields.ite (fun hext16 => ?_) fun _ => ?_
  · subst hext16
    exact (yields_sized16 (hbody .ext)).mono fun _ _ => valueBehind_sized .len16 fun _ => rfl
  refine Yields.ite (fun hext32 => ?_) fun _ => ?_
  · subst hext32
    exact (yields_sized32 (hbody .ext)).mono fun _ _ => valueBehind_sized .len32 fun _ => rfl
  refine Yields.ite (fun hfour => (yields_skipLen 4).mono fun _ read hread => ?_) fun _ => ?_
  · rcases hfour with rfl | rfl | rfl
    · exact valueBehind_number .float32 hread
    · exact valueBehind_number .uint32 hread
    · exact valueBehind_number .int32 hread
  refine Yields.ite (fun height => (yields_skipLen 8).mono fun _ read hread => ?_) fun _ => ?_
  · rcases height with rfl | rfl | rfl
    · exact valueBehind_number .float64 hread
    · exact valueBehind_number .uint64 hread
    · exact valueBehind_number .int64 hread
  refine Yields.ite (fun hone => (yields_skipLen 1).mono fun _ read hread => ?_) fun _ => ?_
  · rcases hone with rfl | rfl
    · exact valueBehind_number .uint8 hread
    · exact valueBehind_number .int8 hread
  refine Yields.ite (fun htwo => (yields_skipLen 2).mono fun _ read hread => ?_) fun _ => ?_
  · rcases htwo with rfl | rfl
    · exact valueBehind_number .uint16 hread
    · exact valueBehind_number .int16 hread
  refine Yields.ite (fun hfixext1 => ?_) fun _ => ?_
  · subst hfixext1
    exact (hbody .ext 1).mono fun _ _ => valueBehind_fixed rfl
  refine Yields.ite (fun hfixext2 => ?_) fun _ => ?_
  · subst hfixext2
    exact (hbody .ext 2).mono fun _ _ => valueBehind_fixed rfl
  refine Yields.ite (fun hfixext4 => ?_) fun _ => ?_
  · subst hfixext4
    exact (hbody .ext 4).mono fun _ _ => valueBehind_fixed rfl
  refine Yields.ite (fun hfixext8 => ?_) fun _ => ?_
  · subst hfixext8
    exact (hbody .ext 8).mono fun _ _ => valueBehind_fixed rfl
  refine Yields.ite (fun hfixext16 => ?_) fun _ => ?_
  · subst hfixext16
    exact (hbody .ext 16).mono fun _ _ => valueBehind_fixed rfl
  refine Yields.ite (fun harray16 => ?_) fun _ => ?_
  · subst harray16
    exact (yields_sized16 (hbody .array)).mono fun _ _ => valueBehind_sized .len16 fun _ => rfl
  refine Yields.ite (fun harray32 => ?_) fun _ => ?_
  · subst harray32
    exact (yields_sized32 (hbody .array)).mono fun _ _ => valueBehind_sized .len32 fun _ => rfl
  refine Yields.ite (fun hmap16 => ?_) fun _ => ?_
  · subst hmap16
    exact (yields_sized16 (hbody .map)).mono fun _ _ => valueBehind_sized .len16 fun _ => rfl
  refine Yields.ite (fun hmap32 => ?_) fun _ => ?_
  · subst hmap32
    exact (yields_sized32 (hbody .map)).mono fun _ _ => valueBehind_sized .len32 fun _ => rfl
  · exact Yields.raise trivial

/-- Where the markers with a short length inside them stand in the chain of cases. -/
theorem skipMarker_fixmap {len : ℕ} (h : len < 16) :
    skipMarker skipItem (UInt8.ofNat (0x80 + len)) = skipMap skipItem len := by
  interval_cases len <;> rfl

/-- The marker of a short array leads to its items. -/
theorem skipMarker_fixarray {len : ℕ} (h : len < 16) :
    skipMarker skipItem (UInt8.ofNat (0x90 + len)) = skipArray skipItem len := by
  interval_cases len <;> rfl

/-- The marker of a short string leads to its bytes. -/
theorem skipMarker_fixstr {len : ℕ} (h : len < 32) :
    skipMarker skipItem (UInt8.ofNat (0xa0 + len)) = skipLen len := by
  interval_cases len <;> rfl

/-- A header and the body behind it are skipped: the marker selects the branch for the rest. -/
def SkipsBehind (skipItem : CursorM LxmfError Unit) (head bytes : List UInt8) : Prop :=
  ∃ marker tail, head = [marker] ++ tail ∧ Reads (skipMarker skipItem marker) (tail ++ bytes) ()

section

variable {family : Family} {len : ℕ} {head bytes : List UInt8} {marker : UInt8}
  (hbody : Reads (skipBody skipItem family len) bytes ())

include hbody

/-- A marker that holds the length is followed by the body. -/
theorem skipsBehind_fixed (hmarker : skipMarker skipItem marker = skipBody skipItem family len) :
    SkipsBehind skipItem [marker] bytes := by
  refine ⟨marker, [], rfl, ?_⟩
  rw [hmarker]
  exact hbody

/-- A marker with one length byte is followed by the body. -/
theorem skipsBehind_sized8 (hheader : sized marker 1 len = some head)
    (hmarker : skipMarker skipItem marker =
      do let len ← readU8 readSlice; skipBody skipItem family len.toNat) :
    SkipsBehind skipItem head bytes := by
  obtain ⟨hlen, rfl⟩ := sized_eq_some hheader
  refine ⟨marker, _, rfl, ?_⟩
  rw [hmarker]
  exact reads_sized8 hlen hbody

/-- A marker with two length bytes is followed by the body. -/
theorem skipsBehind_sized16 (hheader : sized marker 2 len = some head)
    (hmarker : skipMarker skipItem marker =
      do let len ← readU16 readSlice; skipBody skipItem family len.toNat) :
    SkipsBehind skipItem head bytes := by
  obtain ⟨hlen, rfl⟩ := sized_eq_some hheader
  refine ⟨marker, _, rfl, ?_⟩
  rw [hmarker]
  exact reads_sized16 hlen hbody

/-- A marker with four length bytes is followed by the body. -/
theorem skipsBehind_sized32 (hheader : sized marker 4 len = some head)
    (hmarker : skipMarker skipItem marker =
      do let len ← readU32AsUsize; skipBody skipItem family len) :
    SkipsBehind skipItem head bytes := by
  obtain ⟨hlen, rfl⟩ := sized_eq_some hheader
  refine ⟨marker, _, rfl, ?_⟩
  rw [hmarker]
  exact reads_sized32 hlen hbody

end

/-- **Completeness of one header**: behind it the body of its family is skipped. -/
theorem skipsBehind_header {family : Family} {form : LengthForm} {len : ℕ} {head bytes : List UInt8}
    (hheader : header family form len = some head)
    (hbody : Reads (skipBody skipItem family len) bytes ()) : SkipsBehind skipItem head bytes := by
  cases family with
  | str =>
    cases form with
    | fixed =>
      simp only [header] at hheader
      split_ifs at hheader with hlen
      cases hheader
      exact skipsBehind_fixed hbody (skipMarker_fixstr hlen)
    | len8 => exact skipsBehind_sized8 hbody hheader rfl
    | len16 => exact skipsBehind_sized16 hbody hheader rfl
    | len32 => exact skipsBehind_sized32 hbody hheader rfl
  | bin =>
    cases form with
    | fixed => cases hheader
    | len8 => exact skipsBehind_sized8 hbody hheader rfl
    | len16 => exact skipsBehind_sized16 hbody hheader rfl
    | len32 => exact skipsBehind_sized32 hbody hheader rfl
  | ext =>
    cases form with
    | fixed =>
      -- the five lengths that have a marker of their own
      simp only [header] at hheader
      split_ifs at hheader with h1 h2 h4 h8 h16
      all_goals
        cases hheader
        subst len
        exact skipsBehind_fixed hbody rfl
    | len8 => exact skipsBehind_sized8 hbody hheader rfl
    | len16 => exact skipsBehind_sized16 hbody hheader rfl
    | len32 => exact skipsBehind_sized32 hbody hheader rfl
  | array =>
    cases form with
    | fixed =>
      simp only [header] at hheader
      split_ifs at hheader with hlen
      cases hheader
      exact skipsBehind_fixed hbody (skipMarker_fixarray hlen)
    | len8 => cases hheader
    | len16 => exact skipsBehind_sized16 hbody hheader rfl
    | len32 => exact skipsBehind_sized32 hbody hheader rfl
  | map =>
    cases form with
    | fixed =>
      simp only [header] at hheader
      split_ifs at hheader with hlen
      cases hheader
      exact skipsBehind_fixed hbody (skipMarker_fixmap hlen)
    | len8 => cases hheader
    | len16 => exact skipsBehind_sized16 hbody hheader rfl
    | len32 => exact skipsBehind_sized32 hbody hheader rfl

/-- Behind the marker of a number its bytes are skipped. -/
theorem reads_skipMarker_number (kind : NumberKind) (bits : ℕ) :
    Reads (skipMarker skipItem kind.marker) (toBe kind.width bits) () := by
  have hread := reads_skipLen (toBe kind.width bits)
  rw [length_toBe] at hread
  cases kind with
  | float32 => exact hread
  | float64 => exact hread
  | uint8 => exact hread
  | uint16 => exact hread
  | uint32 => exact hread
  | uint64 => exact hread
  | int8 => exact hread
  | int16 => exact hread
  | int32 => exact hread
  | int64 => exact hread

end

/-! ## Values -/

/-- **Soundness**: what is skipped is a value of the grammar. -/
theorem yields_skipValue (levels : ℕ) : Yields (skipValue levels) fun _ bytes =>
    ∃ value, Admits levels value ∧ bytes = value.encode := by
  induction levels with
  | zero =>
    apply Yields.tick.bind
    rintro _ _ rfl
    exact Yields.raise trivial
  | succ levels ih =>
    apply Yields.tick.bind
    rintro _ _ rfl
    apply takesSlices.yields_readU8.bind
    rintro marker _ rfl
    exact (yields_skipMarker ih marker).mono fun _ _ hvalue => hvalue

/-- A value is skipped if what follows its marker is. -/
theorem reads_skipValue_of_marker {levels : ℕ} {marker : UInt8} {bytes : List UInt8}
    (h : Reads (skipMarker (skipValue levels) marker) bytes ()) :
    Reads (skipValue (levels + 1)) ([marker] ++ bytes) () :=
  Reads.tick.bind ((takesSlices.reads_readU8 marker).bind h)

/-- A value is skipped if what follows its header is. -/
theorem reads_skipValue_of_header {levels : ℕ} {family : Family} {form : LengthForm} {len : ℕ}
    {bytes : List UInt8} (hheader : (header family form len).isSome)
    (hbody : Reads (skipBody (skipValue levels) family len) bytes ()) :
    Reads (skipValue (levels + 1)) ((header family form len).getD [] ++ bytes) () := by
  obtain ⟨head, hhead⟩ := Option.isSome_iff_exists.mp hheader
  obtain ⟨marker, tail, rfl, hread⟩ := skipsBehind_header hhead hbody
  rw [hhead, Option.getD_some, List.append_assoc]
  exact reads_skipValue_of_marker hread

/-- **Completeness**: every value of the grammar is skipped. -/
theorem reads_skipValue {levels : ℕ} {value : Value} (h : Admits levels value) :
    Reads (skipValue levels) value.encode () := by
  induction levels generalizing value with
  | zero =>
    have hpos := value.depth_pos
    have hle := h.2
    omega
  | succ levels ih =>
    obtain ⟨hwellFormed, hdepth⟩ := h
    cases hwellFormed with
    | fixint hbyte =>
      apply reads_skipValue_of_marker
      rw [skipMarker, if_pos (hbyte.imp_right .inl)]
      exact Reads.pure ()
    | nil => exact reads_skipValue_of_marker (Reads.pure ())
    | boolean value =>
      cases value with
      | false => exact reads_skipValue_of_marker (Reads.pure ())
      | true => exact reads_skipValue_of_marker (Reads.pure ())
    | number hbits => exact reads_skipValue_of_marker (reads_skipMarker_number _ _)
    | str hheader => exact reads_skipValue_of_header hheader (reads_skipLen _)
    | bin hheader => exact reads_skipValue_of_header hheader (reads_skipLen _)
    | ext type hheader => exact reads_skipValue_of_header hheader (reads_skipExt type _)
    | array hheader hitems =>
      rw [Value.depth, Nat.add_le_add_iff_right, depthItems_le_iff] at hdepth
      -- the items are one level deeper
      refine reads_skipValue_of_header hheader (reads_skipArray ?_)
      exact fun item hmem => ih ⟨hitems item hmem, hdepth item hmem⟩
    | map hheader hkeys hvalues =>
      rw [Value.depth, Nat.add_le_add_iff_right, depthEntries_le_iff] at hdepth
      refine reads_skipValue_of_header hheader (reads_skipMap ?_)
      exact fun entry hmem => ⟨ih ⟨hkeys entry hmem, (hdepth entry hmem).1⟩,
        ih ⟨hvalues entry hmem, (hdepth entry hmem).2⟩⟩

/-! ## The number of skips -/

/-- A slice pays with its bytes. -/
theorem charges_readSlice (len : ℕ) : Charges (-len) 0 (readSlice len) := charges_takeSlice _ _ len

/-- A byte pays for one item. -/
theorem charges_readU8 : Charges (-1) 0 (readU8 readSlice) :=
  (charges_readSlice 1).bind (fun _ => Charges.raise _) (by simp) le_rfl (by simp)

/-- An array costs nothing. -/
theorem charges_readArray (n : ℕ) : Charges 0 0 (readArray readSlice n) :=
  (charges_readSlice n).bind (fun _ => Charges.raise _) (by omega) le_rfl (by omega)

/-- A length of two bytes costs nothing. -/
theorem charges_readU16 : Charges 0 0 (readU16 readSlice) :=
  (charges_readArray 2).bind (fun _ => Charges.pure _) le_rfl le_rfl le_rfl

/-- A length of four bytes costs nothing. -/
theorem charges_readU32AsUsize : Charges 0 0 readU32AsUsize := by
  have hread : Charges 0 0 (readU32 readSlice) :=
    (charges_readArray 4).bind (fun _ => Charges.pure _) le_rfl le_rfl le_rfl
  refine hread.bind (b := 0) (d := 0) (fun _ => ?_) le_rfl le_rfl le_rfl
  exact (Charges.raise _).bind (fun _ => Charges.pure _) le_rfl le_rfl le_rfl

/-- Skipping bytes costs nothing. -/
theorem charges_skipLen (len : ℕ) : Charges 0 1 (skipLen len) :=
  (charges_readSlice len).bind (fun _ => Charges.pure ()) (by omega) (by omega) (by omega)

/-- Skipping an extension costs nothing. -/
theorem charges_skipExt (len : ℕ) : Charges 0 1 (skipExt len) :=
  (charges_skipLen 1).bind (fun _ => charges_skipLen len) le_rfl le_rfl le_rfl

section

variable {skipItem : CursorM LxmfError Unit} (h : Charges 0 1 skipItem)

include h

/-- However long an array claims to be, every item is paid for. -/
theorem charges_skipArray (len : ℕ) : Charges 0 1 (skipArray skipItem len) := by
  induction len with
  | zero => exact (Charges.pure ()).mono le_rfl (by omega)
  | succ len ih => exact h.bind (fun _ => ih) le_rfl le_rfl le_rfl

/-- A map costs what its entries cost, and these pay for themselves. -/
theorem charges_skipMap (len : ℕ) : Charges 0 1 (skipMap skipItem len) := by
  induction len with
  | zero => exact (Charges.pure ()).mono le_rfl (by omega)
  | succ len ih =>
    refine h.bind (b := 0) (d := 1) (fun _ => ?_) le_rfl le_rfl le_rfl
    exact h.bind (fun _ => ih) le_rfl le_rfl le_rfl

/-- What follows a marker pays for itself, and a failure costs one item at most. -/
theorem charges_skipMarker (marker : UInt8) : Charges 0 1 (skipMarker skipItem marker) := by
  have hpure : Charges 0 1 (pure () : CursorM LxmfError Unit) :=
    (Charges.pure ()).mono le_rfl (by omega)
  have hraise : Charges 0 1 (raise (fail (.unsupportedMsgpackType marker)) :
      CursorM LxmfError Unit) := (Charges.raise _).mono le_rfl (by omega)
  have hmap := charges_skipMap h
  have harray := charges_skipArray h
  have hsized8 : ∀ {body : ℕ → CursorM LxmfError Unit}, (∀ len, Charges 0 1 (body len)) →
      Charges 0 1 (do let len ← readU8 readSlice; body len.toNat) := fun hbody =>
    charges_readU8.bind (fun len => hbody len.toNat) (by omega) (by omega) (by omega)
  have hsized16 : ∀ {body : ℕ → CursorM LxmfError Unit}, (∀ len, Charges 0 1 (body len)) →
      Charges 0 1 (do let len ← readU16 readSlice; body len.toNat) := fun hbody =>
    charges_readU16.bind (fun len => hbody len.toNat) (by omega) (by omega) (by omega)
  have hsized32 : ∀ {body : ℕ → CursorM LxmfError Unit}, (∀ len, Charges 0 1 (body len)) →
      Charges 0 1 (do let len ← readU32AsUsize; body len) := fun hbody =>
    charges_readU32AsUsize.bind hbody (by omega) (by omega) (by omega)
  unfold skipMarker
  refine .ite hpure (.ite (hmap _) (.ite (harray _) (.ite (charges_skipLen _) ?_)))
  refine .ite (hsized8 charges_skipLen) (.ite (hsized16 charges_skipLen) ?_)
  refine .ite (hsized32 charges_skipLen) (.ite (hsized8 charges_skipExt) ?_)
  refine .ite (hsized16 charges_skipExt) (.ite (hsized32 charges_skipExt) ?_)
  refine .ite (charges_skipLen 4) (.ite (charges_skipLen 8) (.ite (charges_skipLen 1) ?_))
  refine .ite (charges_skipLen 2) (.ite (charges_skipExt 1) (.ite (charges_skipExt 2) ?_))
  refine .ite (charges_skipExt 4) (.ite (charges_skipExt 8) (.ite (charges_skipExt 16) ?_))
  exact .ite (hsized16 harray) (.ite (hsized32 harray) (.ite (hsized16 hmap)
    (.ite (hsized32 hmap) hraise)))

end

/-- A skip counts itself, and the marker it reads pays for that. -/
theorem charges_skipValue (levels : ℕ) : Charges 0 1 (skipValue levels) := by
  induction levels with
  | zero =>
    refine Charges.tick.bind (b := -1) (d := 0) (fun _ => ?_) le_rfl (by omega) le_rfl
    intro cursor hindex
    exact Advances.refl hindex le_rfl
  | succ levels ih =>
    refine Charges.tick.bind (b := -1) (d := 0) (fun _ => ?_) le_rfl (by omega) le_rfl
    exact charges_readU8.bind (fun marker => charges_skipMarker ih marker) le_rfl le_rfl le_rfl

/-- A raw value pays for itself. -/
theorem charges_readRawValue : Charges 0 1 readRawValue := by
  have hget : Charges 0 0 (get : CursorM LxmfError Cursor) := fun cursor hindex =>
    Advances.refl hindex le_rfl
  refine hget.bind (b := 0) (d := 1) (fun start => ?_) le_rfl (by omega) (by omega)
  refine (charges_skipValue lxmfMsgpackMaxDepth).bind (b := 0) (d := 0) (fun _ => ?_) le_rfl le_rfl
    (by omega)
  exact hget.bind (fun _ => Charges.raise _) le_rfl le_rfl le_rfl

/-! ## Raw values and raw maps -/

/-- A raw value that was read is the encoding of a value within the depth. -/
theorem yields_readRawValue : Yields readRawValue fun raw bytes =>
    raw = bytes ∧ ∃ value, Admits lxmfMsgpackMaxDepth value ∧ bytes = value.encode :=
  (yields_skipValue lxmfMsgpackMaxDepth).rawBytes

/-- The encoding of a value within the depth is read as a raw value. -/
theorem reads_readRawValue {value : Value} (h : Admits lxmfMsgpackMaxDepth value) :
    Reads readRawValue value.encode value.encode :=
  (reads_skipValue h).rawBytes

/-- Only the headers of maps are map markers. -/
theorem isMapMarker_of_header {family : Family} {form : LengthForm} {len : ℕ} {head : List UInt8}
    (h : header family form len = some head) :
    ∃ marker tail, head = marker :: tail ∧ isMapMarker marker = decide (family = .map) := by
  have hsized : ∀ {marker : UInt8} {width : ℕ}, sized marker width len = some head →
      isMapMarker marker = decide (family = .map) →
      ∃ marker tail, head = marker :: tail ∧ isMapMarker marker = decide (family = .map) := by
    intro marker width hheader hmarker
    exact ⟨marker, _, (sized_eq_some hheader).2, hmarker⟩
  have hfixed : ∀ {marker : UInt8}, some [marker] = some head →
      isMapMarker marker = decide (family = .map) →
      ∃ marker tail, head = marker :: tail ∧ isMapMarker marker = decide (family = .map) := by
    intro marker hheader hmarker
    exact ⟨marker, [], (Option.some_inj.mp hheader).symm, hmarker⟩
  cases family <;> cases form <;> simp only [header] at h
  case str.fixed =>
    split_ifs at h with hlen
    exact hfixed h (by interval_cases len <;> rfl)
  case array.fixed =>
    split_ifs at h with hlen
    exact hfixed h (by interval_cases len <;> rfl)
  case map.fixed =>
    split_ifs at h with hlen
    exact hfixed h (by interval_cases len <;> rfl)
  case ext.fixed =>
    split_ifs at h
    all_goals exact hfixed h rfl
  case bin.fixed => cases h
  case array.len8 => cases h
  case map.len8 => cases h
  all_goals exact hsized h rfl

/-- Small integers are no maps. -/
theorem isMapMarker_fixint (byte : UInt8) : byte ≤ 0x7f ∨ 0xe0 ≤ byte → isMapMarker byte = false := by
  revert byte
  apply forall_byte
  decide

/-- A well-formed value is a map exactly when its first byte is a map marker. -/
theorem isMapMarker_encode {value : Value} (h : value.WellFormed) :
    ∃ marker tail, value.encode = marker :: tail ∧ isMapMarker marker = value.isMap := by
  have hannounced : ∀ {family : Family} {form : LengthForm} {len : ℕ} (bytes : List UInt8),
      (header family form len).isSome → ∃ marker tail,
        (header family form len).getD [] ++ bytes = marker :: tail ∧
        isMapMarker marker = decide (family = .map) := by
    intro family form len bytes hsome
    obtain ⟨head, hhead⟩ := Option.isSome_iff_exists.mp hsome
    obtain ⟨marker, tail, rfl, hmarker⟩ := isMapMarker_of_header hhead
    exact ⟨marker, tail ++ bytes, by rw [hhead]; rfl, hmarker⟩
  cases h with
  | fixint hbyte => exact ⟨_, [], rfl, isMapMarker_fixint _ hbyte⟩
  | nil => exact ⟨_, [], rfl, rfl⟩
  | boolean value =>
    cases value
    · exact ⟨_, [], rfl, rfl⟩
    · exact ⟨_, [], rfl, rfl⟩
  | @number kind bits hbits =>
    refine ⟨kind.marker, toBe kind.width bits, rfl, ?_⟩
    cases kind <;> rfl
  | str hheader => exact hannounced _ hheader
  | bin hheader => exact hannounced _ hheader
  | ext type hheader => exact hannounced _ hheader
  | array hheader hitems => exact hannounced _ hheader
  | map hheader hkeys hvalues => exact hannounced _ hheader

/-- At the end of the input no map is read. -/
theorem readRawMap_none {cursor : Cursor} (hpeek : cursor.input[cursor.index]? = none) :
    readRawMap cursor = .error (.error .msgpackTruncated) cursor := by
  show EStateM.bind peekU8 _ cursor = _
  have hfail : peekU8 cursor = .error (.error .msgpackTruncated) cursor := by
    rw [peekU8, run_get_bind, hpeek]
    rfl
  rw [EStateM.bind, hfail]

/-- The map read is the value read behind a look at the marker. -/
theorem readRawMap_some {cursor : Cursor} {marker : UInt8}
    (hpeek : cursor.input[cursor.index]? = some marker) :
    readRawMap cursor =
      if isMapMarker marker then readRawValue cursor
      else .error (.error (.unsupportedMsgpackType marker)) cursor := by
  show EStateM.bind peekU8 _ cursor = _
  have hbyte : peekU8 cursor = .ok marker cursor := by
    rw [peekU8, run_get_bind, hpeek]
    rfl
  rw [EStateM.bind, hbyte]
  cases hmarker : isMapMarker marker with
  | false => simp [raise, rejectIf, hmarker, Bind.bind, EStateM.bind, fail]
  | true => simp [raise, rejectIf, hmarker, Bind.bind, EStateM.bind, readRawValue]

/-- The next byte is the first of the rest. -/
theorem getElem?_eq_head?_drop (input : List UInt8) (index : ℕ) :
    input[index]? = (input.drop index).head? := by
  rw [List.head?_drop]

/-- The encoding of a map within the depth is read as a raw map. -/
theorem reads_readRawMap {value : Value} (h : Admits lxmfMsgpackMaxDepth value)
    (hmap : value.isMap = true) : Reads readRawMap value.encode value.encode := by
  intro cursor rest hlimit hindex hrest
  obtain ⟨marker, tail, hencode, hmarker⟩ := isMapMarker_encode h.1
  have hpeek : cursor.input[cursor.index]? = some marker := by
    rw [getElem?_eq_head?_drop, hrest, hencode]
    rfl
  rw [readRawMap_some hpeek, if_pos (hmarker.trans hmap)]
  exact reads_readRawValue h cursor rest hlimit hindex hrest

/-- A raw map that was read is the encoding of a map within the depth. -/
theorem yields_readRawMap : Yields readRawMap fun raw bytes => raw = bytes ∧
    ∃ value, (Admits lxmfMsgpackMaxDepth value ∧ value.isMap = true) ∧ bytes = value.encode := by
  constructor
  · intro cursor cursor' hindex hrun
    cases hpeek : cursor.input[cursor.index]? with
    | none =>
      rw [readRawMap_none hpeek] at hrun
      cases hrun
    | some marker =>
      rw [readRawMap_some hpeek] at hrun
      split_ifs at hrun
      · exact yields_readRawValue.noPanic cursor cursor' hindex hrun
      · cases hrun
  · intro cursor cursor' raw hindex hrun
    cases hpeek : cursor.input[cursor.index]? with
    | none =>
      rw [readRawMap_none hpeek] at hrun
      cases hrun
    | some marker =>
      rw [readRawMap_some hpeek] at hrun
      split_ifs at hrun with hmarker
      · obtain ⟨bytes, htook, rfl, value, hvalue, rfl⟩ :=
          yields_readRawValue.sound cursor cursor' raw hindex hrun
        refine ⟨_, htook, rfl, value, ⟨hvalue, ?_⟩, rfl⟩
        -- the marker that was looked at is the first byte of what was read
        obtain ⟨first, tail, hencode, hfirst⟩ := isMapMarker_encode hvalue.1
        obtain ⟨rest, hrest⟩ := htook.bytes_prefix
        rw [getElem?_eq_head?_drop, ← hrest, hencode] at hpeek
        cases hpeek
        exact hfirst.symm.trans hmarker

/-- A raw map pays for itself. -/
theorem charges_readRawMap : Charges 0 1 readRawMap := by
  intro cursor hindex
  cases hpeek : cursor.input[cursor.index]? with
  | none =>
    rw [readRawMap_none hpeek]
    exact Advances.refl hindex (by omega)
  | some marker =>
    rw [readRawMap_some hpeek]
    by_cases hmarker : isMapMarker marker
    · rw [if_pos hmarker]
      exact charges_readRawValue cursor hindex
    · rw [if_neg hmarker]
      exact Advances.refl hindex (by omega)

/-- What it means that `reader`, started at `index` of `input`, takes exactly one of the `Good`
values. -/
structure TakesExactly (reader : CursorM LxmfError (List UInt8)) (Good : Value → Prop)
    (input : List UInt8) (index : ℕ) : Prop where
  /-- It succeeds exactly when the encoding of a good value is next. -/
  accepts_iff : (∃ raw cursor, reader ⟨input, index, 0⟩ = .ok raw cursor) ↔
    ∃ value, Good value ∧ value.encode <+: input.drop index
  /-- It returns that encoding and moves behind it. -/
  returns : ∀ raw cursor, reader ⟨input, index, 0⟩ = .ok raw cursor →
    (∃ value, Good value ∧ raw = value.encode) ∧ raw <+: input.drop index ∧
    cursor.input = input ∧ cursor.index = index + raw.length
  /-- No other encoding of a good value is next. -/
  unique : ∀ raw cursor, reader ⟨input, index, 0⟩ = .ok raw cursor → ∀ value, Good value →
    value.encode <+: input.drop index → value.encode = raw
  /-- Nothing but the bytes it returns matters. -/
  independent : ∀ raw cursor, reader ⟨input, index, 0⟩ = .ok raw cursor →
    ∀ other position, other.length < addressLimit → raw <+: other.drop position →
    ∃ cursor', reader ⟨other, position, 0⟩ = .ok raw cursor'
  /-- It never panics. -/
  noPanic : ∀ cursor, reader ⟨input, index, 0⟩ ≠ .error .panic cursor
  /-- The number of skips is bounded by the number of bytes that are left. -/
  skips_le : (finalCursor (reader ⟨input, index, 0⟩)).ticks ≤ input.length - index + 1

section

variable {reader : CursorM LxmfError (List UInt8)} {Good : Value → Prop}

/-- A good value is not empty, so where its encoding is next the position is inside the input. -/
theorem lt_length_of_encode_prefix {value : Value} (h : value.WellFormed) {input : List UInt8}
    {index : ℕ} (hfront : value.encode <+: input.drop index) :
    index + value.encode.length ≤ input.length ∧ index < input.length := by
  obtain ⟨marker, tail, hencode, -⟩ := isMapMarker_encode h
  have hlen := hfront.length_le
  rw [List.length_drop] at hlen
  rw [hencode, List.length_cons] at hlen ⊢
  omega

/-- Soundness, completeness and the count together give all of it. -/
theorem takesExactly (hwellFormed : ∀ value, Good value → value.WellFormed)
    (hyields : Yields reader fun raw bytes =>
      raw = bytes ∧ ∃ value, Good value ∧ bytes = value.encode)
    (hreads : ∀ value, Good value → Reads reader value.encode value.encode)
    (hcharges : Charges 0 1 reader) {input : List UInt8} (hinput : input.length < addressLimit)
    {index : ℕ} (hindex : index ≤ input.length) : TakesExactly reader Good input index := by
  -- at any place of any input, which also says that the bytes behind do not matter
  have hcomplete : ∀ {other : List UInt8} {position : ℕ} {value : Value},
      other.length < addressLimit → Good value → value.encode <+: other.drop position →
      ∃ cursor, reader ⟨other, position, 0⟩ = .ok value.encode cursor := by
    intro other position value hother hgood hfront
    have hlen := lt_length_of_encode_prefix (hwellFormed value hgood) hfront
    obtain ⟨rest, hrest⟩ := hfront
    obtain ⟨ticks, hrun⟩ := hreads value hgood ⟨other, position, 0⟩ rest
      (by simp only; omega) hlen.2.le hrest.symm
    exact ⟨_, hrun⟩
  have hsound : ∀ raw cursor, reader ⟨input, index, 0⟩ = .ok raw cursor →
      (∃ value, Good value ∧ raw = value.encode) ∧ Took ⟨input, index, 0⟩ cursor raw := by
    intro raw cursor hrun
    obtain ⟨bytes, htook, rfl, value, hgood, hencode⟩ :=
      hyields.sound ⟨input, index, 0⟩ cursor raw hindex hrun
    exact ⟨⟨value, hgood, hencode⟩, htook⟩
  refine ⟨⟨?_, ?_⟩, ?_, ?_, ?_, ?_, ?_⟩
  · rintro ⟨raw, cursor, hrun⟩
    obtain ⟨⟨value, hgood, rfl⟩, htook⟩ := hsound raw cursor hrun
    exact ⟨value, hgood, htook.bytes_prefix⟩
  · rintro ⟨value, hgood, hfront⟩
    obtain ⟨cursor, hrun⟩ := hcomplete hinput hgood hfront
    exact ⟨_, cursor, hrun⟩
  · intro raw cursor hrun
    obtain ⟨hvalue, htook⟩ := hsound raw cursor hrun
    exact ⟨hvalue, htook.bytes_prefix, htook.input_eq, htook.index_eq⟩
  · intro raw cursor hrun value hgood hfront
    obtain ⟨cursor', hagain⟩ := hcomplete hinput hgood hfront
    rw [hrun] at hagain
    cases hagain
    rfl
  · intro raw cursor hrun other position hother hfront
    obtain ⟨⟨value, hgood, rfl⟩, -⟩ := hsound raw cursor hrun
    exact hcomplete hother hgood hfront
  · exact fun cursor => hyields.noPanic ⟨input, index, 0⟩ cursor hindex
  · have hticks := hcharges.ticks_le (show (⟨input, index, 0⟩ : Cursor).index ≤ _ from hindex)
    simpa using hticks

/-- Behind the end of the input there is nothing to take. -/
theorem takesExactly_past (hwellFormed : ∀ value, Good value → value.WellFormed)
    {input : List UInt8} {index : ℕ} (hindex : input.length < index)
    (h : ∃ error cursor, reader ⟨input, index, 0⟩ = .error (.error error) cursor ∧
      cursor.ticks ≤ 1) : TakesExactly reader Good input index := by
  obtain ⟨error, cursor, hrun, hticks⟩ := h
  have hnone : ∀ raw cursor, reader ⟨input, index, 0⟩ ≠ .ok raw cursor := by
    intro raw cursor' hok
    rw [hrun] at hok
    cases hok
  refine ⟨⟨?_, ?_⟩, ?_, ?_, ?_, ?_, ?_⟩
  · rintro ⟨raw, cursor', hok⟩
    exact absurd hok (hnone raw cursor')
  · rintro ⟨value, hgood, hfront⟩
    have hlen := lt_length_of_encode_prefix (hwellFormed value hgood) hfront
    omega
  · exact fun raw cursor' hok => absurd hok (hnone raw cursor')
  · exact fun raw cursor' hok => absurd hok (hnone raw cursor')
  · exact fun raw cursor' hok => absurd hok (hnone raw cursor')
  · intro cursor' hpanic
    rw [hrun] at hpanic
    cases hpanic
  · rw [hrun]
    exact hticks.trans (Nat.le_add_left 1 _)

end

/-- A slice read behind the end of the input fails where it is. -/
theorem readSlice_past {input : List UInt8} {index ticks : ℕ} (h : input.length < index) (len : ℕ) :
    ∃ error, readSlice len ⟨input, index, ticks⟩ = .error (.error error) ⟨input, index, ticks⟩ := by
  unfold readSlice takeSlice checkedAdd
  split_ifs
  · simp only
    rw [if_pos (by omega)]
    exact ⟨_, rfl⟩
  · exact ⟨_, rfl⟩

/-- Behind the end of the input a read fails after one item at most. -/
theorem readRawValue_past {input : List UInt8} {index : ℕ} (h : input.length < index) :
    ∃ error cursor, readRawValue ⟨input, index, 0⟩ = .error (.error error) cursor ∧
      cursor.ticks ≤ 1 := by
  obtain ⟨error, hslice⟩ := @readSlice_past input index 1 h 1
  refine ⟨error, ⟨input, index, 1⟩, ?_, le_rfl⟩
  have hskip : skipValue lxmfMsgpackMaxDepth ⟨input, index, 0⟩ =
      EStateM.bind (EStateM.bind (readSlice 1) fun bytes => raise (byteAt bytes 0))
        (skipMarker (skipValue 15)) ⟨input, index, 1⟩ := rfl
  show EStateM.bind (skipValue lxmfMsgpackMaxDepth) _ _ = _
  rw [EStateM.bind, hskip]
  simp only [EStateM.bind, hslice]

/-- **The skipper accepts exactly the MessagePack grammar** with at most 16 levels: `read_raw_value`
every value and `read_raw_map` every map. -/
theorem readRaw_takesExactly (input : List UInt8) (hinput : input.length < addressLimit)
    (index : ℕ) :
    TakesExactly readRawValue (fun value => value.WellFormed ∧ value.depth ≤ 16) input index ∧
    TakesExactly readRawMap (fun value => (value.WellFormed ∧ value.depth ≤ 16) ∧ value.isMap = true)
      input index := by
  rcases Nat.lt_or_ge input.length index with hpast | hindex
  · constructor
    · exact takesExactly_past (fun value hvalue => hvalue.1) hpast (readRawValue_past hpast)
    · refine takesExactly_past (fun value hvalue => hvalue.1.1) hpast
        ⟨.msgpackTruncated, ⟨input, index, 0⟩, ?_, Nat.zero_le 1⟩
      exact readRawMap_none (List.getElem?_eq_none hpast.le)
  · constructor
    · refine takesExactly (fun value hvalue => hvalue.1) yields_readRawValue ?_ charges_readRawValue
        hinput hindex
      exact fun value hvalue => reads_readRawValue hvalue
    · refine takesExactly (fun value hvalue => hvalue.1.1) yields_readRawMap ?_ charges_readRawMap
        hinput hindex
      exact fun value hvalue => reads_readRawMap hvalue.1 hvalue.2

/-- The map `{"a": [false, 42]}`. -/
def sampleMap : List UInt8 := [0x81, 0xa1, 0x61, 0x92, 0xc2, 0x2a]

/-- The sample is read as a whole, over five items. -/
theorem readRaw_sampleMap :
    readRawMap ⟨sampleMap, 0, 0⟩ = .ok sampleMap ⟨sampleMap, 6, 5⟩ ∧
    ∃ value : Value, (value.WellFormed ∧ value.depth ≤ 16) ∧ value.isMap = true ∧
      value.encode = sampleMap := by
  have hrun : readRawMap ⟨sampleMap, 0, 0⟩ = .ok sampleMap ⟨sampleMap, 6, 5⟩ := rfl
  have htakes := (readRaw_takesExactly sampleMap (by simp [sampleMap, addressLimit]) 0).2
  obtain ⟨⟨value, ⟨hvalue, hmap⟩, hencode⟩, -⟩ := htakes.returns _ _ hrun
  exact ⟨hrun, value, hvalue, hmap, hencode.symm⟩

end Hyf.Lxmf
