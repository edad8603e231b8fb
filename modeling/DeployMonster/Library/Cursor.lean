import Mathlib

/-!
# Cursors that are closed under their reader

A cursor hands out the rows of a query. When the context of the query is done, the cursor is closed
at some later moment: then `next` answers that there are no more rows, `scan` fails, and only `err`
tells the early end from the real one. The moment of the close is the number of the call before
which it happens.
-/

namespace Cursor

open List Option

variable {ρ : Type}

/-- When a cursor is closed, and the error that is reported then. -/
abbrev Closing := Option (ℕ × String)

structure Rows (ρ : Type) where
  unread : List ρ
  current : Option ρ := none
  /-- The number of the next call. -/
  calls : ℕ := 0
  /-- Whether the cursor is closed, and by which error; after the last row it is by none. -/
  closed : Option (Option String) := none

namespace Rows

variable (closing : Closing) (rows : Rows ρ)

/-- What has happened to the cursor by its next call. -/
def await : Rows ρ :=
  let due := closing.filter fun c => c.1 ≤ rows.calls
  { rows with
    calls := rows.calls + 1
    closed := rows.closed.or (due.map fun c => some c.2) }

def next : Bool × Rows ρ :=
  let rows := rows.await closing
  match rows.closed, rows.unread with
  | some _, _ => (false, rows)
  | none, [] => (false, { rows with closed := some none })
  | none, r :: unread => (true, { rows with unread, current := some r })

def scan : Except String ρ × Rows ρ :=
  let rows := rows.await closing
  match rows.closed, rows.current with
  | some e, _ => (.error (e.getD "sql: Rows are closed"), rows)
  | none, none => (.error "sql: Scan called without calling Next", rows)
  | none, some r => (.ok r, rows)

def err : Option String := rows.closed.join

/-- The loop over the rows: what it has read and the cursor that it leaves, or the error of a `scan`. -/
def readLoop : ℕ → Rows ρ → List ρ → Option (Except String (List ρ × Rows ρ))
  | 0, _, _ => none
  | fuel + 1, rows, acc =>
    match rows.next closing with
    | (false, rows) => some (.ok (acc, rows))
    | (true, rows) =>
      match rows.scan closing with
      | (.error e, _) => some (.error e)
      | (.ok r, rows) => readLoop fuel rows (acc ++ [r])

/-- The loop from the beginning. It takes one turn for each row, and a last one. -/
def readAll (rows : List ρ) : Option (Except String (List ρ × Rows ρ)) :=
  readLoop closing (rows.length + 1) { unread := rows } []

end Rows

/-- The close comes after the last call of a loop over `n` rows. -/
def Late (closing : Closing) (n : ℕ) : Prop := ∀ c ∈ closing, 2 * n < c.1

namespace Rows

variable {closing : Closing} {rows : Rows ρ} (hopen : rows.closed = none)
include hopen

variable (h : ∀ c ∈ closing, rows.calls < c.1)
include h

lemma await_of_lt :
    rows.await closing = { rows with calls := rows.calls + 1 } := by
  have hdue : closing.filter (fun c => c.1 ≤ rows.calls) = none := by
    rw [filter_eq_none_iff]
    intro c hc
    simpa using h c hc
  rw [await, hdue, hopen]
  rfl

variable {e : String} {c : ℕ}

omit h in
lemma closed_await_of_le (hclosing : closing = some (c, e)) (h : c ≤ rows.calls) :
    (rows.await closing).closed = some (some e) := by
  rw [await, hopen, hclosing, filter_some, if_pos (by simpa using h)]
  rfl

omit h in
lemma next_of_le (hclosing : closing = some (c, e)) (h : c ≤ rows.calls) :
    ∃ rows', rows.next closing = (false, rows') ∧ rows'.err = some e := by
  have hclosed := closed_await_of_le hopen hclosing h
  refine ⟨rows.await closing, ?_, by rw [err, hclosed]; rfl⟩
  simp only [next, hclosed]

lemma next_nil (hunread : rows.unread = []) :
    ∃ rows', rows.next closing = (false, rows') ∧ rows'.err = none := by
  simp only [next, await_of_lt hopen h, hopen, hunread]
  exact ⟨_, rfl, rfl⟩

variable {unread : List ρ} {r : ρ}

lemma next_cons (hunread : rows.unread = r :: unread) :
    rows.next closing = (true, ⟨unread, some r, rows.calls + 1, none⟩) := by
  simp only [next, await_of_lt hopen h, hopen, hunread]

omit h in
lemma scan_of_le (hclosing : closing = some (c, e)) (h : c ≤ rows.calls) :
    rows.scan closing = (.error e, rows.await closing) := by
  simp only [scan, closed_await_of_le hopen hclosing h, getD_some]

lemma scan_of_lt (hcurrent : rows.current = some r) :
    rows.scan closing = (.ok r, ⟨rows.unread, some r, rows.calls + 1, none⟩) := by
  simp only [scan, await_of_lt hopen h, hopen, hcurrent]

omit h

variable {fuel : ℕ} {acc : List ρ}

lemma readLoop_of_next (hclosing : closing = some (rows.calls, e)) :
    ∃ rows', readLoop closing (fuel + 1) rows acc = some (.ok (acc, rows')) ∧ rows'.err = some e := by
  obtain ⟨rows', hnext, herr⟩ := next_of_le hopen hclosing (Nat.le_refl _)
  exact ⟨rows', by rw [readLoop, hnext], herr⟩

lemma readLoop_of_scan
    (hclosing : closing = some (rows.calls + 1, e)) (hunread : rows.unread = r :: unread) :
    readLoop closing (fuel + 1) rows acc = some (.error e) := by
  have hnext : ∀ c ∈ closing, rows.calls < c.1 := by
    rintro c hc
    obtain rfl := some.inj (hclosing.symm.trans hc)
    exact Nat.lt_succ_self _
  have hscan : scan closing ⟨unread, some r, rows.calls + 1, none⟩ = (.error e, _) :=
    scan_of_le rfl hclosing (Nat.le_refl _)
  simp only [readLoop, next_cons hopen hnext hunread, hscan]

lemma readLoop_cons (h : ∀ c ∈ closing, rows.calls + 1 < c.1) (hunread : rows.unread = r :: unread) :
    readLoop closing (fuel + 1) rows acc =
      readLoop closing fuel ⟨unread, some r, rows.calls + 2, none⟩ (acc ++ [r]) := by
  have hnext : ∀ c ∈ closing, rows.calls < c.1 := fun c hc => Nat.lt_of_succ_lt (h c hc)
  have hscan : scan closing ⟨unread, some r, rows.calls + 1, none⟩ = (.ok r, _) :=
    scan_of_lt rfl h rfl
  simp only [readLoop, next_cons hopen hnext hunread, hscan]

omit hopen

/-- **How the loop ends** from an open cursor whose close is still to come. -/
theorem readLoop_cases (unread : List ρ) (fuel : ℕ) (hfuel : unread.length < fuel) (rows : Rows ρ)
    (hunread : rows.unread = unread) (hopen : rows.closed = none)
    (hclosing : ∀ c ∈ closing, rows.calls ≤ c.1) (acc : List ρ) :
    ((∀ c ∈ closing, rows.calls + 2 * unread.length < c.1) ∧
      ∃ rows', readLoop closing fuel rows acc = some (.ok (acc ++ unread, rows')) ∧
        rows'.err = none) ∨
    (∃ k e, closing = some (rows.calls + 2 * k, e) ∧ k ≤ unread.length ∧
      ∃ rows', readLoop closing fuel rows acc = some (.ok (acc ++ unread.take k, rows')) ∧
        rows'.err = some e) ∨
    ∃ k e, closing = some (rows.calls + 2 * k + 1, e) ∧ k < unread.length ∧
      readLoop closing fuel rows acc = some (.error e) := by
  induction unread generalizing fuel rows acc with
  | nil =>
    obtain ⟨fuel, rfl⟩ := Nat.exists_eq_succ_of_ne_zero (Nat.ne_zero_of_lt hfuel)
    by_cases hlate : ∀ c ∈ closing, rows.calls < c.1
    · obtain ⟨rows', hnext, herr⟩ := next_nil hopen hlate hunread
      refine .inl ⟨hlate, rows', ?_, herr⟩
      rw [readLoop, hnext, append_nil]
    obtain ⟨e, hc⟩ : ∃ e, closing = some (rows.calls, e) := by
      obtain ⟨⟨c, e⟩, hc, hle⟩ : ∃ c ∈ closing, ¬rows.calls < c.1 := by simpa using hlate
      obtain rfl : c = rows.calls := Nat.le_antisymm (Nat.not_lt.mp hle) (hclosing _ hc)
      exact ⟨e, hc⟩
    obtain ⟨rows', hread, herr⟩ := readLoop_of_next hopen hc
    refine .inr (.inl ⟨0, e, hc, Nat.le_refl _, rows', ?_, herr⟩)
    rw [hread, take_nil, append_nil]
  | cons r unread ih =>
    obtain ⟨fuel, rfl⟩ := Nat.exists_eq_succ_of_ne_zero (Nat.ne_zero_of_lt hfuel)
    have hfuel := Nat.lt_of_succ_lt_succ hfuel
    by_cases hlate : ∀ c ∈ closing, rows.calls + 1 < c.1
    · rw [readLoop_cons hopen hlate hunread]
      obtain ⟨hend, rows', hread, herr⟩ | ⟨k, e, hc, hk, rows', hread, herr⟩ | ⟨k, e, hc, hk, hread⟩ :=
        ih fuel hfuel ⟨unread, some r, rows.calls + 2, none⟩ rfl rfl hlate (acc ++ [r])
      · refine .inl ⟨fun c hc => ?_, rows', ?_, herr⟩
        · have := hend c hc
          rw [length_cons]
          dsimp only at this
          omega
        · rw [hread, append_assoc, singleton_append]
      · refine .inr (.inl ⟨k + 1, e, ?_, Nat.succ_le_succ hk, rows', ?_, herr⟩)
        · rw [hc, Nat.mul_succ, Nat.add_right_comm, Nat.add_assoc]
        · rw [hread, append_assoc, singleton_append, take_succ_cons]
      · refine .inr (.inr ⟨k + 1, e, ?_, Nat.succ_lt_succ hk, hread⟩)
        rw [hc, Nat.mul_succ, Nat.add_right_comm rows.calls, Nat.add_assoc rows.calls]
    · obtain ⟨⟨c, e⟩, hc, hle⟩ : ∃ c ∈ closing, ¬rows.calls + 1 < c.1 := by simpa using hlate
      have hge := hclosing _ hc
      obtain rfl | rfl : c = rows.calls ∨ c = rows.calls + 1 := by omega
      · obtain ⟨rows', hread, herr⟩ := readLoop_of_next hopen hc
        refine .inr (.inl ⟨0, e, hc, Nat.zero_le _, rows', ?_, herr⟩)
        rw [hread, take_zero, append_nil]
      · exact .inr (.inr ⟨0, e, hc, Nat.zero_lt_succ _, readLoop_of_scan hopen hc hunread⟩)

/-- **How the loop over all rows ends.** -/
theorem readAll_cases (closing : Closing) (rows : List ρ) : (Late closing rows.length ∧
      ∃ rows', readAll closing rows = some (.ok (rows, rows')) ∧ rows'.err = none) ∨
    (∃ k e, closing = some (2 * k, e) ∧ k ≤ rows.length ∧
      ∃ rows', readAll closing rows = some (.ok (rows.take k, rows')) ∧ rows'.err = some e) ∨
    ∃ k e, closing = some (2 * k + 1, e) ∧ k < rows.length ∧
      readAll closing rows = some (.error e) := by
  have h := readLoop_cases rows (rows.length + 1) (Nat.lt_succ_self _) { unread := rows } rfl rfl
    (fun c (_ : c ∈ closing) => Nat.zero_le _) []
  simp only [Nat.zero_add, nil_append] at h
  exact h

end Rows

end Cursor
