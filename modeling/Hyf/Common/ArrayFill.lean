import Hyf.Common.CursorM
import Mathlib.Data.Vector.Basic

/-!
# Filling arrays from the front

An array of fixed size keeps a list of smaller or equal length: its first cells hold the elements, and
the others a default. Cells are written one by one, and a write or a read behind the end panics. The two
loops below fill an array; while there is room for the elements, they leave the array that keeps them.
-/

namespace ByteCodec

section

variable {ε α β : Type} {n : ℕ}

/-- `cells[index] = a`. -/
def setCell (cells : List.Vector α n) (index : ℕ) (a : α) : Outcome ε (List.Vector α n) :=
  if index < n then .ok ⟨cells.toList.set index a, by simp⟩ else .error .panic

/-- `cells[index]`. -/
def cellAt (cells : List.Vector α n) (index : ℕ) : Outcome ε α :=
  match cells.toList[index]? with
  | some a => .ok a
  | none => .error .panic

/-- `&cells[..count]`. -/
def frontOf (cells : List.Vector α n) (count : ℕ) : Outcome ε (List α) :=
  if count ≤ n then .ok (cells.toList.take count) else .error .panic

/-- `for (index, b) in bs.iter().enumerate() { cells[index] = convert(b)?; }`, from `index` on. -/
def copyInto (convert : β → Outcome ε α) :
    ℕ → List β → List.Vector α n → Outcome ε (List.Vector α n)
  | _, [], cells => .ok cells
  | index, b :: bs, cells => do
    let a ← convert b
    let cells ← setCell cells index a
    copyInto convert (index + 1) bs cells

/-- A loop that reads `count` elements into the cells, from `index` on, and breaks where there is none. -/
def readInto (read : ℕ → Outcome ε (Option α)) :
    ℕ → ℕ → List.Vector α n → Outcome ε (List.Vector α n)
  | 0, _, cells => .ok cells
  | count + 1, index, cells => do
    match ← read index with
    | none => return cells
    | some a =>
      let cells ← setCell cells index a
      readInto read count (index + 1) cells

/-! ## The array that keeps a list -/

theorem length_padded (n : ℕ) (filler : α) (as : List α) :
    ((as ++ List.replicate n filler).take n).length = n := by
  rw [List.length_take, List.length_append, List.length_replicate]
  omega

/-- The first cells hold the elements, and the others the filler. -/
def padded (n : ℕ) (filler : α) (as : List α) : List.Vector α n :=
  ⟨(as ++ List.replicate n filler).take n, length_padded n filler as⟩

variable {filler : α} {as : List α} {a : α} {index : ℕ}

theorem padded_nil : padded n filler [] = List.Vector.replicate n filler := by
  apply Subtype.ext
  show (List.replicate n filler).take n = List.replicate n filler
  rw [List.take_replicate, Nat.min_self]

theorem toList_padded (h : as.length ≤ n) :
    (padded n filler as).toList = as ++ List.replicate (n - as.length) filler := by
  show (as ++ List.replicate n filler).take n = _
  rw [List.take_append, List.take_of_length_le h, List.take_replicate,
    Nat.min_eq_left (Nat.sub_le n as.length)]

theorem setCell_padded (h : as.length < n) :
    (setCell (padded n filler as) as.length a : Outcome ε _) = .ok (padded n filler (as ++ [a])) := by
  have hlen : (as ++ [a]).length ≤ n := by
    rw [List.length_append, List.length_singleton]
    exact h
  obtain ⟨spare, hspare⟩ : ∃ spare, n - as.length = spare + 1 := ⟨n - as.length - 1, by omega⟩
  rw [setCell, if_pos h]
  congr 1
  apply Subtype.ext
  show (padded n filler as).toList.set as.length a = (padded n filler (as ++ [a])).toList
  rw [toList_padded h.le, toList_padded hlen, List.set_append_right as.length a le_rfl, Nat.sub_self,
    hspare, List.replicate_succ, List.set_cons_zero, List.append_assoc, List.singleton_append,
    List.length_append, List.length_singleton, ← Nat.sub_sub, hspare, Nat.add_sub_cancel]

theorem cellAt_padded (h : as.length ≤ n) (ha : as[index]? = some a) :
    (cellAt (padded n filler as) index : Outcome ε α) = .ok a := by
  obtain ⟨hlt, -⟩ := List.getElem?_eq_some_iff.mp ha
  rw [cellAt, toList_padded h, List.getElem?_append_left hlt, ha]

theorem frontOf_padded (h : as.length ≤ n) :
    (frontOf (padded n filler as) as.length : Outcome ε (List α)) = .ok as := by
  rw [frontOf, if_pos h, toList_padded h, List.take_left]

/-- **Copying** leaves the array that keeps the converted elements, unless a conversion fails. -/
theorem copyInto_padded {convert : β → Outcome ε α} {bs : List β} (h : as.length + bs.length ≤ n) :
    copyInto convert as.length bs (padded n filler as) =
      bs.mapM convert >>= fun converted => .ok (padded n filler (as ++ converted)) := by
  induction bs generalizing as with
  | nil =>
    rw [copyInto, List.mapM_nil]
    show _ = Except.ok (padded n filler (as ++ []))
    rw [List.append_nil]
  | cons b bs ih =>
    rw [List.length_cons] at h
    rw [copyInto, List.mapM_cons]
    cases convert b with
    | error fault => rfl
    | ok a =>
      have hset : (setCell (padded n filler as) as.length a : Outcome ε _) = _ :=
        setCell_padded (by omega)
      have hlen : (as ++ [a]).length = as.length + 1 := List.length_append
      have hrest := @ih (as ++ [a]) (by omega)
      rw [hlen] at hrest
      show (setCell (padded n filler as) as.length a >>= fun cells =>
        copyInto convert (as.length + 1) bs cells) = _
      rw [Outcome.bind_eq hset, hrest]
      show _ = (bs.mapM convert >>= fun converted => _) >>= _
      cases bs.mapM convert with
      | error fault => rfl
      | ok converted =>
        show Except.ok (padded n filler ((as ++ [a]) ++ converted)) =
          Except.ok (padded n filler (as ++ a :: converted))
        rw [List.append_assoc, List.singleton_append]

/-- Elements that are checked before they are converted. -/
theorem mapM_checked {check : β → Outcome ε Unit} {convert : β → Outcome ε α} {f : β → α}
    (h : ∀ b, convert b = check b >>= fun _ => .ok (f b)) (bs : List β) :
    bs.mapM convert = bs.forM check >>= fun _ => .ok (bs.map f) := by
  induction bs with
  | nil => rfl
  | cons b bs ih =>
    rw [List.mapM_cons, h, ih]
    show _ = ((check b >>= fun _ => bs.forM check) >>= fun _ => _)
    cases check b with
    | error fault => rfl
    | ok _ =>
      show ((bs.forM check >>= fun _ => _) >>= _) = (bs.forM check >>= _)
      cases bs.forM check <;> rfl

/-- **Reading** leaves the array that keeps what was read. -/
theorem readInto_padded {read : ℕ → Outcome ε (Option α)} {more : List α}
    (hread : ∀ (j : ℕ) (a : α), more[j]? = some a → read (as.length + j) = .ok (some a))
    (h : as.length + more.length ≤ n) :
    readInto read more.length as.length (padded n filler as) = .ok (padded n filler (as ++ more)) := by
  induction more generalizing as with
  | nil => rw [List.append_nil]; rfl
  | cons a more ih =>
    rw [List.length_cons] at h
    have hfirst : read as.length = .ok (some a) := hread 0 a rfl
    have hset : (setCell (padded n filler as) as.length a : Outcome ε _) = _ :=
      setCell_padded (by omega)
    have hlen : (as ++ [a]).length = as.length + 1 := List.length_append
    have hrest := @ih (as ++ [a]) (by
      intro j b hb
      rw [hlen, Nat.add_assoc, Nat.add_comm 1 j]
      exact hread (j + 1) b hb) (by omega)
    rw [hlen, List.append_assoc, List.singleton_append] at hrest
    rw [List.length_cons, readInto, Outcome.bind_eq hfirst]
    simp only
    rw [Outcome.bind_eq hset, hrest]

/-- Copying into a fresh array. -/
theorem copyInto_replicate {convert : β → Outcome ε α} {bs : List β} (h : bs.length ≤ n) :
    copyInto convert 0 bs (List.Vector.replicate n filler) =
      bs.mapM convert >>= fun converted => .ok (padded n filler converted) := by
  have hroom : ([] : List α).length + bs.length ≤ n := by rwa [List.length_nil, Nat.zero_add]
  have hcopy := @copyInto_padded _ _ _ _ filler _ convert bs hroom
  rwa [padded_nil, List.length_nil] at hcopy

/-- Reading into a fresh array. -/
theorem readInto_replicate {read : ℕ → Outcome ε (Option α)} {more : List α}
    (hread : ∀ (j : ℕ) (a : α), more[j]? = some a → read j = .ok (some a)) (h : more.length ≤ n) :
    readInto read more.length 0 (List.Vector.replicate n filler) = .ok (padded n filler more) := by
  have hroom : ([] : List α).length + more.length ≤ n := by rwa [List.length_nil, Nat.zero_add]
  have hread' : ∀ (j : ℕ) (a : α), more[j]? = some a →
      read (([] : List α).length + j) = .ok (some a) := by
    intro j a ha
    rw [List.length_nil, Nat.zero_add]
    exact hread j a ha
  have hresult := @readInto_padded _ _ _ filler _ read more hread' hroom
  rwa [padded_nil, List.length_nil, List.nil_append] at hresult

end

end ByteCodec
