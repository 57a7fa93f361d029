import NodeBackend.Store.Collection

namespace store

/-- Identifiers for rows, and how a column of them reads a text. It may know several
spellings of one identifier. What it handed out it reads as that, and the empty text
spells none. -/
structure UuidSource extends IdSource where
  read : String → Option String
  own : ∀ n, read (hex n) = some (hex n)
  read_empty : read "" = none

theorem UuidSource.ne_empty_of_read {ids : UuidSource} {text id : String} (h : ids.read text = some id) :
    text ≠ "" := by
  rintro rfl
  cases ids.read_empty.symm.trans h

theorem UuidSource.nonempty (ids : UuidSource) (n : Nat) : ids.hex n ≠ "" :=
  UuidSource.ne_empty_of_read (ids.own n)

/-- One spelling for each identifier, which is any text but the empty one. -/
def readLiterally (text : String) : Option String :=
  if text = "" then none else some text

theorem readLiterally_of_ne {text : String} (h : text ≠ "") : readLiterally text = some text :=
  if_neg h

/-- Identifiers that count insertions. -/
def UuidSource.counting : UuidSource where
  toIdSource := IdSource.counting
  read := readLiterally
  own := fun _ => readLiterally_of_ne Nat.repr_ne_empty
  read_empty := rfl

theorem startingWith_nonempty {first : String} (hfirst : first ≠ "") (n : Nat) :
    Equiv.swap (Nat.repr 0) first (Nat.repr n) ≠ "" := by
  rw [Equiv.swap_apply_def]
  split
  · exact hfirst
  · split
    · exact Nat.repr_ne_empty
    · exact Nat.repr_ne_empty

/-- Identifiers the first of which is a given text. -/
def UuidSource.startingWith (first : String) (hfirst : first ≠ "") : UuidSource where
  hex := fun n => Equiv.swap (Nat.repr 0) first (Nat.repr n)
  injective := (Equiv.injective _).comp repr_injective
  read := readLiterally
  own := fun n => readLiterally_of_ne (startingWith_nonempty hfirst n)
  read_empty := rfl

theorem UuidSource.startingWith_zero (first : String) (hfirst : first ≠ "") :
    (UuidSource.startingWith first hfirst).hex 0 = first :=
  Equiv.swap_apply_left _ _

/-- Rows with an identifier, and with one more column whose values, nulls apart,
are unique in a table. -/
class Record (Row : Type) where
  id : Row → String
  unique : Row → Option String

/-- Rows in the order they were inserted, with the two constraints. -/
structure Table (ids : UuidSource) (Row : Type) [Record Row] where
  rows : List Row
  inserted : Nat
  known : ∀ row ∈ rows, ∃ n < inserted, Record.id row = ids.hex n
  distinct : (rows.map Record.id).Nodup
  unique : (rows.filterMap Record.unique).Nodup

namespace Table

variable {ids : UuidSource} {Row : Type} [Record Row]

def empty : Table ids Row := ⟨[], 0, by simp, List.nodup_nil, List.nodup_nil⟩

/-- A table whose only row has one of the identifiers. -/
def single (row : Row) (n : Nat) (hid : Record.id row = ids.hex n) : Table ids Row where
  rows := [row]
  inserted := n + 1
  known := by
    intro other hother
    rw [List.mem_singleton.mp hother]
    exact ⟨n, by omega, hid⟩
  distinct := by simp
  unique := by
    rw [List.filterMap_cons, List.filterMap_nil]
    cases Record.unique row <;> simp

/-- The identifier that the next insertion gets. -/
def nextId (table : Table ids Row) : String :=
  ids.hex table.inserted

theorem id_ne_nextId (table : Table ids Row) {row : Row} (hrow : row ∈ table.rows) :
    Record.id row ≠ table.nextId := by
  obtain ⟨n, hn, hid⟩ := table.known row hrow
  intro heq
  exact absurd (ids.injective (hid.symm.trans heq)) hn.ne

/-- The identifier of a row is read as it is. -/
theorem read_id (table : Table ids Row) {row : Row} (hrow : row ∈ table.rows) :
    ids.read (Record.id row) = some (Record.id row) := by
  obtain ⟨n, _, hid⟩ := table.known row hrow
  rw [hid]
  exact ids.own n

theorem id_nonempty (table : Table ids Row) {row : Row} (hrow : row ∈ table.rows) : Record.id row ≠ "" := by
  obtain ⟨n, _, hid⟩ := table.known row hrow
  rw [hid]
  exact ids.nonempty n

theorem eq_of_id_eq (table : Table ids Row) {row other : Row} (hrow : row ∈ table.rows) (hother : other ∈ table.rows)
    (hid : Record.id row = Record.id other) : row = other :=
  List.inj_on_of_nodup_map table.distinct hrow hother hid

theorem eq_of_unique_eq (table : Table ids Row) {row other : Row} {value : String} (hrow : row ∈ table.rows)
    (hother : other ∈ table.rows) (hvalue : Record.unique row = some value)
    (hvalue' : Record.unique other = some value) : row = other := by
  let R (a b : Row) : Prop := Record.unique a = some value → Record.unique b = some value → a = b
  have hpairs := List.pairwise_filterMap.mp table.unique
  have hforward : table.rows.Pairwise R := hpairs.imp fun h ha hb => absurd rfl (h value ha value hb)
  have hbackward : table.rows.Pairwise (flip R) := hpairs.imp fun h ha hb => absurd rfl (h value hb value ha)
  exact List.Pairwise.forall_of_forall_of_flip (fun _ _ _ _ => rfl) hforward hbackward hrow hother hvalue hvalue'

theorem eq_of_rows {table other : Table ids Row} (hrows : table.rows = other.rows)
    (hinserted : table.inserted = other.inserted) : table = other := by
  cases table
  cases other
  cases hrows
  cases hinserted
  rfl

/-- A new row, unless the unique column holds its value already. -/
def insert (table : Table ids Row) (make : String → Row) (hid : ∀ id, Record.id (make id) = id) :
    Option (Table ids Row) :=
  if hunique : ((table.rows ++ [make table.nextId]).filterMap Record.unique).Nodup then
    some
      { rows := table.rows ++ [make table.nextId]
        inserted := table.inserted + 1
        known := by
          intro row hrow
          obtain hold | hnew := List.mem_append.mp hrow
          · obtain ⟨n, hn, hkey⟩ := table.known row hold
            exact ⟨n, by omega, hkey⟩
          · rw [List.mem_singleton.mp hnew]
            exact ⟨table.inserted, by omega, hid _⟩
        distinct := by
          rw [List.map_append]
          refine List.nodup_append.mpr ⟨table.distinct, by simp, ?_⟩
          intro a ha b hb
          obtain ⟨row, hrow, rfl⟩ := List.mem_map.mp ha
          rw [List.map_singleton, List.mem_singleton, hid] at hb
          rw [hb]
          exact table.id_ne_nextId hrow
        unique := hunique }
  else none

/-- Rows of which the one that a text names is changed. -/
def changeNamed (ids : UuidSource) (text : String) (change : Row → Row) (rows : List Row) : List Row :=
  rows.map fun row => if ids.read text = some (Record.id row) then change row else row

theorem changeNamed_of_read {text id : String} (hread : ids.read text = some id) (change : Row → Row)
    (rows : List Row) :
    changeNamed ids text change rows = rows.map fun row => if Record.id row = id then change row else row := by
  unfold changeNamed
  rw [hread]
  simp only [Option.some.injEq, eq_comm]

theorem map_changeNamed (ids : UuidSource) {Key : Type} (key : Row → Key) {change : Row → Row}
    (hkey : ∀ row, key (change row) = key row) (text : String) (rows : List Row) :
    (changeNamed ids text change rows).map key = rows.map key := by
  unfold changeNamed
  rw [List.map_map]
  apply List.map_congr_left
  intro row _
  rw [Function.comp_apply]
  split
  · exact hkey row
  · rfl

/-- The row that a text names changed, unless another one holds its new value of the
unique column. -/
def modify (table : Table ids Row) (text : String) (change : Row → Row)
    (hid : ∀ row, Record.id (change row) = Record.id row) : Option (Table ids Row) :=
  if hunique : ((changeNamed ids text change table.rows).filterMap Record.unique).Nodup then
    some
      { rows := changeNamed ids text change table.rows
        inserted := table.inserted
        known := by
          intro row hrow
          obtain ⟨old, hold, rfl⟩ := List.mem_map.mp hrow
          obtain ⟨n, hn, hkey⟩ := table.known old hold
          refine ⟨n, hn, ?_⟩
          split
          · exact (hid old).trans hkey
          · exact hkey
        distinct := by
          rw [map_changeNamed ids Record.id hid]
          exact table.distinct
        unique := hunique }
  else none

/-- The table without the row that a text names. -/
def delete (table : Table ids Row) (text : String) : Table ids Row where
  rows := table.rows.filter fun row => ids.read text != some (Record.id row)
  inserted := table.inserted
  known := fun row hrow => table.known row (List.mem_of_mem_filter hrow)
  distinct := (List.filter_sublist.map Record.id).nodup table.distinct
  unique := (List.filter_sublist.filterMap Record.unique).nodup table.unique

/-- How many rows a change by a text affects. -/
def affected (table : Table ids Row) (text : String) : Nat :=
  table.rows.countP fun row => ids.read text == some (Record.id row)

theorem affected_pos {table : Table ids Row} {row : Row} (hrow : row ∈ table.rows) :
    0 < table.affected (Record.id row) :=
  List.countP_pos_iff.mpr ⟨row, hrow, beq_iff_eq.mpr (table.read_id hrow)⟩

theorem insert_eq_some {table changed : Table ids Row} {make : String → Row}
    {hid : ∀ id, Record.id (make id) = id} (h : table.insert make hid = some changed) :
    changed.rows = table.rows ++ [make table.nextId] ∧ changed.inserted = table.inserted + 1 := by
  unfold insert at h
  split at h
  · cases h
    exact ⟨rfl, rfl⟩
  · cases h

/-- The unique column takes no value twice, whichever row holds it. -/
theorem insert_eq_none {table : Table ids Row} {make : String → Row} {hid : ∀ id, Record.id (make id) = id} {row : Row}
    {value : String} (hrow : row ∈ table.rows) (hold : Record.unique row = some value)
    (hnew : Record.unique (make table.nextId) = some value) : table.insert make hid = none := by
  cases hinsert : table.insert make hid with
  | none => rfl
  | some changed =>
    have hrows := (insert_eq_some hinsert).1
    have hmem : row ∈ changed.rows := by simp [hrows, hrow]
    have hmem' : make table.nextId ∈ changed.rows := by simp [hrows]
    have hsame := changed.eq_of_unique_eq hmem hmem' hold hnew
    have hne := table.id_ne_nextId hrow
    rw [hsame, hid] at hne
    exact absurd rfl hne

theorem exists_insert (table : Table ids Row) (make : String → Row) (hid : ∀ id, Record.id (make id) = id)
    (hfresh : ∀ row ∈ table.rows, ∀ value, Record.unique row = some value →
      Record.unique (make table.nextId) ≠ some value) : ∃ changed, table.insert make hid = some changed := by
  have hunique : ((table.rows ++ [make table.nextId]).filterMap Record.unique).Nodup := by
    rw [List.filterMap_append]
    refine List.nodup_append.mpr ⟨table.unique, ?_, ?_⟩
    · rw [List.filterMap_cons]
      cases Record.unique (make table.nextId) <;> simp
    · intro value hvalue other hother
      obtain ⟨row, hrow, hold⟩ := List.mem_filterMap.mp hvalue
      obtain ⟨new, hmem, hnew⟩ := List.mem_filterMap.mp hother
      rw [List.mem_singleton.mp hmem] at hnew
      rintro rfl
      exact hfresh row hrow value hold hnew
  unfold insert
  rw [dif_pos hunique]
  exact ⟨_, rfl⟩

theorem modify_eq_some {table changed : Table ids Row} {text : String} {change : Row → Row}
    {hid : ∀ row, Record.id (change row) = Record.id row} (h : table.modify text change hid = some changed) :
    changed.rows = changeNamed ids text change table.rows ∧ changed.inserted = table.inserted := by
  unfold modify at h
  split at h
  · cases h
    exact ⟨rfl, rfl⟩
  · cases h

/-- A change that leaves the unique column alone violates nothing. -/
theorem exists_modify (table : Table ids Row) (text : String) {change : Row → Row}
    (hid : ∀ row, Record.id (change row) = Record.id row)
    (hsame : ∀ row, Record.unique (change row) = Record.unique row) :
    ∃ changed, table.modify text change hid = some changed := by
  have hunique : ((changeNamed ids text change table.rows).filterMap Record.unique).Nodup := by
    unfold changeNamed
    rw [List.filterMap_map]
    refine (List.filterMap_congr fun row _ => ?_ : _ = table.rows.filterMap Record.unique) ▸ table.unique
    rw [Function.comp_apply]
    split
    · exact hsame row
    · rfl
  unfold modify
  rw [dif_pos hunique]
  exact ⟨_, rfl⟩

/-- A change of a row to a value of the unique column that no other row holds. -/
theorem exists_modify_of_fresh (table : Table ids Row) {text id : String} (hread : ids.read text = some id)
    (change : Row → Row) (hid : ∀ row, Record.id (change row) = Record.id row)
    (hfresh : ∀ row ∈ table.rows, Record.id row = id → ∀ other ∈ table.rows, Record.id other ≠ id →
      ∀ value, Record.unique other = some value → Record.unique (change row) ≠ some value) :
    ∃ changed, table.modify text change hid = some changed := by
  have hunique : ((changeNamed ids text change table.rows).filterMap Record.unique).Nodup := by
    rw [changeNamed_of_read hread]
    have hpairs := (List.pairwise_filterMap.mp table.unique).and (List.pairwise_map.mp table.distinct)
    refine List.pairwise_filterMap.mpr (List.pairwise_map.mpr (hpairs.imp_of_mem ?_))
    rintro row other hrow hother ⟨hvalues, hids⟩ value hvalue value' hvalue'
    by_cases hsame : Record.id row = id
    · have hne : Record.id other ≠ id := fun heq => hids (hsame.trans heq.symm)
      rw [if_pos hsame] at hvalue
      rw [if_neg hne] at hvalue'
      rintro rfl
      exact hfresh row hrow hsame other hother hne value hvalue' hvalue
    · rw [if_neg hsame] at hvalue
      by_cases hsame' : Record.id other = id
      · rw [if_pos hsame'] at hvalue'
        rintro rfl
        exact hfresh other hother hsame' row hrow hsame value hvalue hvalue'
      · rw [if_neg hsame'] at hvalue'
        exact hvalues value hvalue value' hvalue'
  unfold modify
  rw [dif_pos hunique]
  exact ⟨_, rfl⟩

end Table

end store
