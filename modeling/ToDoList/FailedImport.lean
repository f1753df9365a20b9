import ToDoList.RoundTrip

/-!
# Checkpoints that cannot be imported (db.c, storage.c)

`import_db_internal` empties the table before it opens the file and inserts
every entry as its last line arrives. A file that ends too soon is imported up
to that point, and `import_db` and `handle_storage` return 0 in any case.
-/

namespace ToDoList
open CLib

/-- There is no FILE_END line, or an entry has been begun and not ended in front
of it; `inside` tells whether one is open. -/
def cutOff : Bool → List Bytes → Bool
  | _, [] => true
  | inside, buf :: lines =>
    if startsWith (cString buf) "DATA_END" then cutOff false lines
    else if startsWith (cString buf) "FILE_END" then inside
    else cutOff true lines

/-- The file cannot be opened or is no complete export. -/
def FailedCheckpoint (file : Option Bytes) : Prop :=
  ∀ bytes, file = some bytes → cutOff false (fgetsLines 1024 [] bytes) = true

/-- The failure is reported and the table is as it was. -/
def CleanFailure (env : Env) (s : Store) (ctx : ClientCtx) : Prop :=
  ∃ ret u ctx', handleStorage env s ctx = .ok (ret, u, ctx') ∧ ret ≠ 0 ∧
    u.htable.data = s.htable.data ∧ u.htable.dataSize = s.htable.dataSize

/-- The lines up to the last entry that is complete. -/
def wholeEntries : List Bytes → List Bytes
  | [] => []
  | buf :: lines =>
    if startsWith (cString buf) "DATA_END" then buf :: wholeEntries lines
    else if startsWith (cString buf) "FILE_END" then []
    else if wholeEntries lines = [] then []
    else buf :: wholeEntries lines

theorem importLoop_wholeEntries (env : Env) (lines : List Bytes) (st : ImportState) :
    (importLoop env lines st).map ImportState.table =
      (importLoop env (wholeEntries lines) st).map ImportState.table := by
  induction lines generalizing st with
  | nil => rfl
  | cons buf lines ih =>
    rw [wholeEntries]
    by_cases hdata : startsWith (cString buf) "DATA_END" = true
    · rw [if_pos hdata, importLoop, importLoop]
      rw [if_pos hdata, if_pos hdata]
      split
      · rfl
      · exact ih _
    · by_cases hend : startsWith (cString buf) "FILE_END" = true
      · rw [if_neg hdata, if_pos hend]
        show (importLoop env (buf :: lines) st).map ImportState.table = .ok st.table
        rw [importLoop, if_neg hdata, if_pos hend]
        rfl
      · rw [if_neg hdata, if_neg hend, importLoop]
        rw [if_neg hdata, if_neg hend, ih]
        by_cases hnone : wholeEntries lines = []
        · rw [if_pos hnone, hnone]
          -- a line in front of nothing but other lines changes no table
          show Except.ok (importField (cString buf) st).table = Except.ok st.table
          rw [importField_table]
        · rw [if_neg hnone, importLoop]
          rw [if_neg hdata, if_neg hend]

theorem importDbInternal_some (env : Env) (t : HTable) (bytes : Bytes) :
    importDbInternal env t (some bytes) =
      (importLoop env (fgetsLines 1024 [] bytes) { table := hashTableInit t.allocs }).map ImportState.table := by
  unfold importDbInternal
  dsimp only
  cases importLoop env (fgetsLines 1024 [] bytes) { table := hashTableInit t.allocs } with
  | error f => rfl
  | ok st => rfl

theorem handleStorage_chkPt (env : Env) (s : Store) (ctx : ClientCtx) (htype : ctx.req.msgType = .msgChkPt) :
    handleStorage env s ctx = (importDbInternal env s.htable (s.files ctx.req.filename)).map fun t =>
      (0, ⟨t, Function.update s.files ctx.req.filename none⟩, ctx) := by
  unfold handleStorage
  simp only [htype]
  cases importDbInternal env s.htable (s.files ctx.req.filename) with
  | error f => rfl
  | ok t => rfl

theorem chkPt_returns_zero {env : Env} {s u : Store} {ctx ctx' : ClientCtx} {ret : ℤ}
    (htype : ctx.req.msgType = .msgChkPt) (h : handleStorage env s ctx = .ok (ret, u, ctx')) : ret = 0 := by
  rw [handleStorage_chkPt env s ctx htype] at h
  cases himp : importDbInternal env s.htable (s.files ctx.req.filename) with
  | error f =>
    rw [himp] at h
    cases h
  | ok t =>
    rw [himp] at h
    cases h
    rfl

theorem not_cleanFailure {env : Env} {s : Store} {ctx : ClientCtx} (htype : ctx.req.msgType = .msgChkPt) :
    ¬CleanFailure env s ctx := by
  rintro ⟨ret, u, ctx', h, hret, -⟩
  exact hret (chkPt_returns_zero htype h)

/-- No failed import is clean. A file that is missing faults; of a file that is
cut off the table afterwards has the complete entries, and nothing that was in
it before. -/
theorem failed_import_never_clean (env : Env) (s : Store) (ctx : ClientCtx)
    (htype : ctx.req.msgType = .msgChkPt) (hfail : FailedCheckpoint (s.files ctx.req.filename)) :
    ¬CleanFailure env s ctx ∧
      ((s.files ctx.req.filename = none ∧ handleStorage env s ctx = .error .nullDeref) ∨
        ∃ bytes, s.files ctx.req.filename = some bytes ∧
          cutOff false (fgetsLines 1024 [] bytes) = true ∧
          (handleStorage env s ctx).map (fun r => (r.1, r.2.1.htable)) =
            (importLoop env (wholeEntries (fgetsLines 1024 [] bytes))
              { table := hashTableInit s.htable.allocs }).map fun st => (0, st.table)) := by
  refine ⟨not_cleanFailure htype, ?_⟩
  rw [handleStorage_chkPt env s ctx htype]
  cases hfile : s.files ctx.req.filename with
  | none => exact .inl ⟨rfl, rfl⟩
  | some bytes =>
    refine .inr ⟨bytes, rfl, hfail bytes hfile, ?_⟩
    have hwhole := importLoop_wholeEntries env (fgetsLines 1024 [] bytes)
      { table := hashTableInit s.htable.allocs }
    rw [importDbInternal_some, hwhole]
    cases importLoop env (wholeEntries (fgetsLines 1024 [] bytes))
      { table := hashTableInit s.htable.allocs } with
    | error f => rfl
    | ok st => rfl

def emptyCheckpoint : ClientCtx := { req := { msgType := .msgChkPt, filename := ascii "tmp-7" } }

def milkStore : Store := ⟨milkTable, fun _ => some []⟩

theorem empty_checkpoint_wipes_table :
    FailedCheckpoint (milkStore.files emptyCheckpoint.req.filename) ∧
      ∃ u, handleStorage (zeroEnv fun _ => none) milkStore emptyCheckpoint = .ok (0, u, emptyCheckpoint) ∧
        (allEntries u.htable).length = 0 ∧ (allEntries milkStore.htable).length = 1 ∧
        ¬CleanFailure (zeroEnv fun _ => none) milkStore emptyCheckpoint := by
  refine ⟨?_, _, rfl, by decide +kernel, by decide +kernel, not_cleanFailure rfl⟩
  intro bytes hbytes
  cases hbytes
  rfl

theorem failed_import_never_clean_empty :
    ¬CleanFailure (zeroEnv fun _ => none) milkStore emptyCheckpoint :=
  (failed_import_never_clean (zeroEnv fun _ => none) milkStore emptyCheckpoint rfl
    (by
      intro bytes hbytes
      cases hbytes
      rfl)).1

end ToDoList
