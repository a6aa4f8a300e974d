import Hyf.Store.StoreCalls
import Mathlib.Data.List.Lex
import Mathlib.Data.Prod.Lex
import Mathlib.Order.Nat

/-!
# The order of pending frames

`pending` sorts the stored frames into the caller's slice by insertion, `first_pending` looks for the
smallest in one pass with a comparison function of its own. Both follow one linear order on keys, under
which the records of a store are distinct.
-/

namespace Hyf

/-- Expiry, then creation, then message id. -/
def StoreRecord.pendingKey (record : StoreRecord) : ℕ ×ₗ ℕ ×ₗ List ℕ :=
  toLex (record.expiresAtMs.toNat, toLex (record.createdAtMs.toNat,
    record.messageId.bytes.toList.map UInt8.toNat))

theorem map_toNat_lt_iff (xs ys : List UInt8) :
    xs.map UInt8.toNat < ys.map UInt8.toNat ↔ xs < ys := by
  induction xs generalizing ys with
  | nil => cases ys <;> simp
  | cons x xs ih =>
    cases ys with
    | nil => simp
    | cons y ys =>
      rw [List.map_cons, List.map_cons, List.cons_lt_cons_iff, List.cons_lt_cons_iff, ih,
        UInt8.lt_iff_toNat_lt, UInt8.toNat_inj]

theorem recordPrecedes_iff (record existing : StoreRecord) :
    recordPrecedes record existing = true ↔ record.pendingKey < existing.pendingKey := by
  simp only [recordPrecedes, StoreRecord.pendingKey, Prod.Lex.toLex_lt_toLex, map_toNat_lt_iff,
    ← UInt64.lt_iff_toNat_lt, UInt64.toNat_inj, Bool.or_eq_true, Bool.and_eq_true, decide_eq_true_eq,
    beq_iff_eq]
  tauto

theorem framePrecedes_iff (record existing : StoreRecord) :
    framePrecedes record existing = true ↔ record.pendingKey < existing.pendingKey :=
  recordPrecedes_iff record existing

theorem StoreRecord.messageId_eq_of_pendingKey_eq {record existing : StoreRecord}
    (h : record.pendingKey = existing.pendingKey) : record.messageId = existing.messageId := by
  have hids : record.messageId.bytes.toList.map UInt8.toNat =
      existing.messageId.bytes.toList.map UInt8.toNat := congrArg (fun key => (ofLex (ofLex key).2).2) h
  have hinjective : Function.Injective UInt8.toNat := fun _ _ => UInt8.toNat_inj.mp
  have hbytes : record.messageId.bytes = existing.messageId.bytes :=
    Subtype.ext (List.map_injective_iff.mpr hinjective hids)
  exact MessageId.mk.injEq _ _ ▸ hbytes

namespace Store

variable {n frameMax : ℕ}

/-- Every record is inserted into the sorted front of the slice. -/
theorem writePending_spec {records front buffer : List StoreRecord}
    (hsorted : front.Pairwise fun x y => x.pendingKey < y.pendingKey)
    (hnodup : ((front ++ records).map StoreRecord.pendingKey).Nodup)
    (hroom : records.length ≤ buffer.length) :
    ∃ sorted, sorted.Perm (front ++ records) ∧
      (sorted.Pairwise fun x y => x.pendingKey < y.pendingKey) ∧
      writePending records front.length (front ++ buffer) =
        (front.length + records.length, sorted ++ buffer.drop records.length) := by
  induction records generalizing front buffer with
  | nil => exact ⟨front, by simp, hsorted, by simp [writePending]⟩
  | cons record records ih =>
    obtain ⟨hole, rest, rfl⟩ : ∃ hole rest, buffer = hole :: rest :=
      List.exists_cons_of_length_pos (lt_of_lt_of_le (Nat.succ_pos _) hroom)
    have hfresh : ∀ x ∈ front, x.pendingKey ≠ record.pendingKey := by
      intro x hx hkey
      rw [List.map_append, List.nodup_append] at hnodup
      exact hnodup.2.2 _ (List.mem_map_of_mem hx) _ (List.mem_map_of_mem List.mem_cons_self) hkey
    obtain ⟨front', hperm, hsorted', hinsert⟩ :=
      @InsertionSort.insertShifting_spec _ _ _ _ _ framePrecedes_iff record front hole rest hsorted hfresh
    have hperm' : (front' ++ records).Perm (front ++ record :: records) :=
      (hperm.append_right records).trans List.perm_middle.symm
    obtain ⟨sorted, hall, hsorted'', hwrite⟩ := @ih front' rest hsorted'
      ((hperm'.map StoreRecord.pendingKey).nodup_iff.mpr hnodup)
      (Nat.le_of_succ_le_succ hroom)
    refine ⟨sorted, hall.trans hperm', hsorted'', ?_⟩
    have hlen : front'.length = front.length + 1 := by rw [hperm.length_eq, List.length_cons]
    rw [writePending, insertPending, hinsert, ← hlen, hwrite, hlen, List.length_cons,
      List.drop_succ_cons]
    simp only [Prod.mk.injEq, and_true]
    omega

theorem WellFormed.nodup_pendingKey {store : Store n frameMax} (h : store.WellFormed) :
    (store.live.map StoreRecord.pendingKey).Nodup := by
  have hlive := List.Nodup.of_map _ h.nodup
  have hids := (List.nodup_map_iff_inj_on hlive).mp h.nodup
  rw [List.nodup_map_iff_inj_on hlive]
  intro x hx y hy hkey
  exact hids x hx y hy (StoreRecord.messageId_eq_of_pendingKey_eq hkey)

/-- There is one way to put records in order. -/
theorem eq_of_sorted {sorted sorted' : List StoreRecord} (hperm : sorted.Perm sorted')
    (hsorted : sorted.Pairwise fun x y => x.pendingKey < y.pendingKey)
    (hsorted' : sorted'.Pairwise fun x y => x.pendingKey < y.pendingKey) : sorted = sorted' :=
  hperm.eq_of_pairwise (fun _ _ _ _ hlt hgt => absurd hlt hgt.asymm) hsorted hsorted'

/-- What `pending` does with a slice. -/
theorem WellFormed.pending_eq {store : Store n frameMax} (h : store.WellFormed)
    {sorted : List StoreRecord} (hperm : sorted.Perm store.live)
    (hsorted : sorted.Pairwise fun x y => x.pendingKey < y.pendingKey) (out : List StoreRecord) :
    store.pending out = if out.length < store.len then
      (.error (.outputTooSmall out.length store.len), out)
    else (.ok store.len, sorted ++ out.drop store.len) := by
  rw [pending]
  split_ifs with hshort
  · rfl
  obtain ⟨sorted', hperm', hsorted', hwrite⟩ := @writePending_spec store.live
    [] out .nil h.nodup_pendingKey (not_lt.mp hshort)
  obtain rfl := eq_of_sorted (hperm'.trans hperm.symm) hsorted' hsorted
  rw [List.length_nil, List.nil_append, Nat.zero_add] at hwrite
  change ((Except.ok (writePending store.live 0 out).1 : Except StoreError ℕ),
    (writePending store.live 0 out).2) = _
  rw [hwrite]
  rfl

theorem WellFormed.exists_sorted {store : Store n frameMax} (h : store.WellFormed) :
    ∃ sorted : List StoreRecord, sorted.Perm store.live ∧
      sorted.Pairwise fun x y => x.pendingKey < y.pendingKey := by
  obtain ⟨sorted, hperm, hsorted, -⟩ := @writePending_spec store.live []
    store.live .nil h.nodup_pendingKey le_rfl
  exact ⟨sorted, hperm, hsorted⟩

theorem selectPending_eq : selectPending = InsertionSort.keepFirst recordPrecedes := by
  funext selected record
  cases selected <;> rfl

/-- One list of the records increases strictly with expiry, creation and id. A slice with room for it
receives it and is not changed behind it, a shorter slice is not changed at all, and the first pending
frame is its head, which an empty store does not have. -/
def PendsInOrder (store : Store n frameMax) : Prop :=
  ∃ sorted : List StoreRecord, sorted.Perm store.live ∧
    (sorted.Pairwise fun x y => x.pendingKey < y.pendingKey) ∧
    store.firstPending = sorted.head? ∧ (store.firstPending = none ↔ store.len = 0) ∧
    ∀ out, store.pending out = if out.length < store.len then
        (.error (.outputTooSmall out.length store.len), out)
      else (.ok store.len, sorted ++ out.drop store.len)

theorem WellFormed.pendsInOrder {store : Store n frameMax} (h : store.WellFormed) :
    store.PendsInOrder := by
  obtain ⟨sorted, hperm, hsorted⟩ := h.exists_sorted
  refine ⟨sorted, hperm, hsorted, ?_, ?_, h.pending_eq hperm hsorted⟩
  · rw [firstPending, selectPending_eq]
    exact InsertionSort.foldl_keepFirst_eq_head? recordPrecedes_iff hperm hsorted
  · rw [firstPending_eq_none_iff]
    exact List.length_eq_zero_iff.symm

/-- **The pending frames are the records in order**, after any calls on a new store. -/
theorem pending_sorted (policy : StorePolicy) (calls : List StoreCall) :
    (runCalls policy calls : Store n frameMax).PendsInOrder :=
  (runCalls_invariant policy calls).1.pendsInOrder

end Store

end Hyf
