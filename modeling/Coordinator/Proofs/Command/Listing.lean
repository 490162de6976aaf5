import Coordinator.Command
import Coordinator.Proofs.Deployment.Sharing
import Coordinator.Proofs.Journal.Escape
import Coordinator.Proofs.Plant.Listing

/-! # What a listing prints

The command that lists prepared branches prints a table: a line for each branch, with tabs between
its columns.  Numbers have no byte that ends a column or a line, and neither has an escaped xid.  So
**the table is read back as it was written** (`readListing?_lines`), to the last byte of each xid,
whatever bytes the xids have.  Over an engine, the table is that of its prepared branches, with one
line for each.

The command is taken on a screen for itself; what it prints there, it prints on the screen that it
shares with the journal (`output_run`). -/
namespace Coordinator.Command

open Plant

/-! ## Reading a table -/

/-- What a line says of a branch. -/
structure Entry where
  formatId : Int64
  globalLength : Int64
  qualifierLength : Int64
  xid : Bytes
deriving DecidableEq, Repr

def Entry.of (b : Xa.Recovered) : Entry := ⟨b.formatId, b.globalLength, b.qualifierLength, b.xid⟩

/-- The entry on a line: three numbers and a text between double quotes, with tabs between them. -/
def readLine? (line : Bytes) : Option Entry :=
  match line.splitOn 9 with
  | [formatId, globalLength, qualifierLength, xid] => do
    return ⟨← Decimal.readInt64? formatId, ← Decimal.readInt64? globalLength,
      ← Decimal.readInt64? qualifierLength, ← Journal.readQuoted? xid⟩
  | _ => none

/-- The entries of a table; a newline ends every line. -/
def readListing? (text : Bytes) : Option (List Entry) :=
  (text.splitOn 10).dropLast.mapM readLine?

/-! ## Columns and lines -/

variable {b : Xa.Recovered} {found : List Xa.Recovered}

/-- A column: it has neither a tab nor a newline. -/
theorem not_mem_column {s : Bytes} (hs : s.IsPrintable) : (9 : UInt8) ∉ s ∧ (10 : UInt8) ∉ s :=
  ⟨hs.not_mem (by decide), hs.not_mem (by decide)⟩

/-- The columns of a branch. -/
def columns (b : Xa.Recovered) : List Bytes :=
  [Decimal.ofInt b.formatId.toInt, Decimal.ofInt b.globalLength.toInt,
    Decimal.ofInt b.qualifierLength.toInt, Journal.printable b.xid]

theorem isPrintable_columns (b : Xa.Recovered) : ∀ s ∈ columns b, s.IsPrintable := by
  intro s hs
  simp only [columns, List.mem_cons, List.not_mem_nil, or_false] at hs
  rcases hs with rfl | rfl | rfl | rfl
  · exact Decimal.isPrintable_ofInt _
  · exact Decimal.isPrintable_ofInt _
  · exact Decimal.isPrintable_ofInt _
  · exact Journal.isPrintable_printable _

/-- The line of a branch, without its end. -/
def row (b : Xa.Recovered) : Bytes := Bytes.join [9] (columns b)

theorem branchLine_eq (b : Xa.Recovered) : branchLine b = row b ++ [10] := rfl

theorem splitOn_row (b : Xa.Recovered) : (row b).splitOn 9 = columns b := by
  rw [row, Bytes.join_eq_intercalate]
  refine List.splitOn_intercalate 9 (fun s hs => ?_) (List.cons_ne_nil _ _)
  exact (not_mem_column (isPrintable_columns b s hs)).1

theorem newline_not_mem_row (b : Xa.Recovered) : (10 : UInt8) ∉ row b := by
  intro hmem
  rcases Bytes.mem_of_mem_join hmem with hmem | ⟨s, hs, hmem⟩
  · exact absurd hmem (by decide)
  · exact (not_mem_column (isPrintable_columns b s hs)).2 hmem

/-- A word is read from its text. -/
theorem readInt64?_toInt (n : Int64) : Decimal.readInt64? (Decimal.ofInt n.toInt) = some n := by
  have hlow := n.le_toInt
  have hhigh := n.toInt_lt
  rw [Decimal.readInt64?_ofInt, if_pos ⟨hlow, hhigh⟩, Int64.ofInt_toInt]

/-- A line is read back. -/
theorem readLine?_row (b : Xa.Recovered) : readLine? (row b) = some (Entry.of b) := by
  rw [readLine?, splitOn_row]
  simp only [columns, readInt64?_toInt, Journal.readQuoted?_printable]
  rfl

/-! ## Tables -/

/-- The lines of the branches. -/
theorem splitOn_lines (found : List Xa.Recovered) :
    (found.flatMap branchLine).splitOn 10 = found.map row ++ [[]] := by
  induction found with
  | nil => exact List.splitOn_nil 10
  | cons b rest ih =>
    rw [List.flatMap_cons, branchLine_eq, List.append_assoc, List.singleton_append,
      List.splitOn_append_cons_self_of_not_mem (newline_not_mem_row b), ih]
    rfl

/-- **The table is read back as it was written.** -/
theorem readListing?_lines (found : List Xa.Recovered) :
    readListing? (found.flatMap branchLine) = some (found.map Entry.of) := by
  rw [readListing?, splitOn_lines, List.dropLast_concat]
  induction found with
  | nil => rfl
  | cons b rest ih =>
    rw [List.map_cons, List.mapM_cons, readLine?_row, ih]
    rfl

theorem count_lines (found : List Xa.Recovered) :
    (found.flatMap branchLine).count 10 = found.length := by
  induction found with
  | nil => rfl
  | cons b rest ih =>
    have hrow : (row b).count 10 = 0 := List.count_eq_zero_of_not_mem (newline_not_mem_row b)
    rw [List.flatMap_cons, branchLine_eq, List.count_append, List.count_append, hrow, ih,
      List.length_cons]
    simp
    omega

/-- A text is the table of the branches: as many lines as there are branches, from which what there
is to know of them is read back, in order. -/
structure Tabulates (found : List Xa.Recovered) (text : Bytes) : Prop where
  lines : text.count 10 = found.length
  read : readListing? text = some (found.map Entry.of)

theorem tabulates_lines (found : List Xa.Recovered) :
    Tabulates found (found.flatMap branchLine) :=
  ⟨count_lines found, readListing?_lines found⟩

/-! ## The command -/

section Run
variable {d : Deployment} {name printed : Bytes} {rest : List Bytes} {p p' : Plant}

/-- Texts are printed one after the other. -/
theorem run_forEach_print {ω α : Type} [Screen ω] (f : α → Bytes) (items : List α) (printed : ω)
    (p : Plant) : (Action.forEach (fun a => print (f a)) items).run (printed, p) =
      (.ok (), items.foldl (fun s a => Screen.print p.journal.length (f a) s) printed, p) := by
  induction items generalizing printed with
  | nil => rfl
  | cons a items ih =>
    rw [Action.forEach, Action.run_bind, run_print]
    exact ih _

/-- On a screen for the command alone, texts follow each other. -/
theorem foldl_print {α : Type} (f : α → Bytes) (items : List α) (printed : Bytes) (n : Nat) :
    items.foldl (fun s a => Screen.print n (f a) s) printed = printed ++ items.flatMap f := by
  induction items generalizing printed with
  | nil => exact (List.append_nil printed).symm
  | cons a items ih =>
    show items.foldl _ (printed ++ f a) = _
    rw [ih, List.flatMap_cons, List.append_assoc]

/-- Listing prints what recovery finds; when that fails nothing is printed. -/
theorem recover_list_run (d : Deployment) (name : Bytes) (rest : List Bytes) (printed : Bytes)
    (p : Plant) : (recover d (ascii "list") name rest).run (printed, p) =
      match (d.recoverNamed name).run p with
      | (.ok found, p') => (.ok .done, printed ++ found.flatMap branchLine, p')
      | (.error f, p') => (.error f, printed, p') := by
  rw [recover, Deployment.recoverNamed, Action.run_bind, Action.run_bind, Action.run_ofExcept,
    Action.run_ofExcept]
  cases d.participant name with
  | error f => rfl
  | ok a =>
    simp only [if_pos, Action.run_bind]
    rw [run_onPlant]
    rcases (a.component.recover (alone.gateway a.pool)).run p with ⟨f | found, p'⟩
    · rfl
    · simp only [run_forEach_print, foldl_print]
      rfl

/-- An engine that answers a participant: it is there, it takes a recovery query, and the pool has
a connection to lend. -/
structure Answers (P : Participant) (h : HostId) (k : Nat) (R : Table RegistryRef (Registry Line))
    (host : Host) (pool : Pool Line) (p : Plant) : Prop where
  dialect : P.dialect ≠ .postgres
  holds : Holds h k R host pool p
  tended : Tended h k host pool
  fits : Representable host.engine
  available : host.engine.available = true
  clear : host.engine.Clear (ascii "XA RECOVER")
  lent : ∃ l p', (counter h k).acquire.run p = (.ok l, p')

/-- The table of an engine: a line for each prepared branch, with its xid, the length of the xid and
the numbers of branches in memory. -/
structure TabulatesEngine (e : Engine) (text : Bytes) (entries : List Entry) : Prop where
  read : readListing? text = some entries
  lines : text.count 10 = entries.length
  once : (entries.map Entry.xid).Nodup
  exact : ∀ x, x ∈ entries.map Entry.xid ↔ IsPrepared e x
  numbers : ∀ n ∈ entries, n = ⟨1, Int64.ofNat n.xid.length, 0, n.xid⟩

theorem Entry.of_describes {x : Bytes} (h : Describes b x) :
    Entry.of b = ⟨1, Int64.ofNat x.length, 0, x⟩ := by
  have hlength : b.globalLength = Int64.ofNat x.length := by
    rw [← Int64.ofInt_toInt b.globalLength, h.globalLength]
    rfl
  rw [Entry.of, h.formatId, hlength, h.qualifierLength, h.xid]

theorem tabulatesEngine_lines {e : Engine} (h : ListsAll e found) :
    TabulatesEngine e (found.flatMap branchLine) (found.map Entry.of) := by
  have hxids : (found.map Entry.of).map Entry.xid = found.map Xa.Recovered.xid := by
    rw [List.map_map]
    rfl
  refine ⟨readListing?_lines found, ?_, ?_, ?_, fun n hn => ?_⟩
  · rw [count_lines, List.length_map]
  · rw [hxids]
    exact h.once
  · rw [hxids]
    exact h.exact
  · obtain ⟨b, hb, rfl⟩ := List.mem_map.mp hn
    exact Entry.of_describes (h.describes b hb)

/-- The table that is printed over an engine. -/
theorem recover_list_engine {P : Participant} {h : HostId} {k : Nat}
    {R : Table RegistryRef (Registry Line)} {host : Host} {pool : Pool Line}
    (ha : Answers P h k R host pool p) (hd : d.participant name = .ok ⟨P, poolOf h k⟩) :
    ∃ text p' entries, (recover d (ascii "list") name rest).run (printed, p) =
      (.ok .done, printed ++ text, p') ∧ TabulatesEngine host.engine text entries := by
  obtain ⟨found, p', hrun, hall, -⟩ :=
    recover_run ha.dialect ha.holds ha.tended ha.fits ha.available ha.clear ha.lent
  have hnamed : (d.recoverNamed name).run p = (.ok found, p') := by
    rw [Deployment.recoverNamed, hd]
    exact hrun
  refine ⟨found.flatMap branchLine, p', found.map Entry.of, ?_, tabulatesEngine_lines hall⟩
  rw [recover_list_run, hnamed]

/-- **Escaped xids are printable and unambiguous.**  A value between its double quotes is legible,
and putting the byte of each escape in its place gives the value back, so that no two values are
written alike; what the listing of branches prints is their table, whatever the backend answered;
and over an engine that answers, it is the table of its prepared branches. -/
theorem xids_unambiguous :
    (∀ v, ∃ text, Journal.printable v = 34 :: text ++ [34] ∧ Journal.Legible text ∧
      Journal.unescape text = v) ∧
    Function.Injective Journal.printable ∧
    (∀ (d : Deployment) name rest printed p, match (d.recoverNamed name).run p with
      | (.ok found, p') => ∃ text, Tabulates found text ∧
        (recover d (ascii "list") name rest).run (printed, p) = (.ok .done, printed ++ text, p')
      | (.error f, p') =>
        (recover d (ascii "list") name rest).run (printed, p) = (.error f, printed, p')) ∧
    ∀ (d : Deployment) name rest printed p P h k R host pool, Answers P h k R host pool p →
      d.participant name = .ok ⟨P, poolOf h k⟩ →
        ∃ text p' entries, (recover d (ascii "list") name rest).run (printed, p) =
          (.ok .done, printed ++ text, p') ∧ TabulatesEngine host.engine text entries := by
  refine ⟨fun v => ?_, Journal.printable_injective, fun d name rest printed p => ?_, ?_⟩
  · exact ⟨Journal.inside v, Journal.printable_eq v, Journal.legible_inside v,
      Journal.unescape_inside v⟩
  · have hrun := recover_list_run d name rest printed p
    rcases hnamed : (d.recoverNamed name).run p with ⟨f | found, p'⟩
    · rwa [hnamed] at hrun
    · rw [hnamed] at hrun
      exact ⟨_, tabulates_lines found, hrun⟩
  · intro d name rest printed p P h k R host pool ha hd
    exact recover_list_engine ha hd

/-- An xid with a tab, a newline, a double quote and a backslash in it. -/
def awkward : Bytes := [97, 9, 10, 34, 92, 120]

/-- A workshop whose engine has a prepared branch of this xid. -/
def awkwardShelf : Workshop := (Workshop.new (ascii "8.0") (ascii "orders") 2 50).run
  [.injectPrepared awkward]

/-- The engine under the name of a participant. -/
def awkwardNames : Deployment where
  participants := (∅ : Table Bytes (Pooled Participant)).insert (ascii "p")
    ⟨⟨ascii "p", .mysql⟩, poolOf Workshop.host Workshop.number⟩

theorem answers_awkwardShelf : ∃ R host pool,
    Answers ⟨ascii "p", .mysql⟩ Workshop.host Workshop.number R host pool awkwardShelf.plant ∧
      IsPrepared host.engine awkward := by
  have hpassive : ∀ op ∈ [Op.injectPrepared awkward], op.IsPassive := by
    simp [Op.IsPassive]
  have horderly : Workshop.Orderly False awkwardShelf :=
    Workshop.orderly_run (Workshop.orderly_new (ascii "8.0") (ascii "orders") 2 50) hpassive
      False.elim
  obtain ⟨host, pool, hh, hc, -⟩ := horderly.lends
  have he : host.engine = engineOf Workshop.host awkwardShelf.plant := hh.engineOf_eq.symm
  have hprepared : host.engine.branches.prepared = [awkward] := by
    rw [he]
    decide +kernel
  refine ⟨_, host, pool,
    ⟨by decide, hh, hc.tended, fun x hx => ?_, by rw [he]; rfl, ?_, ⟨_, _, rfl⟩⟩, ?_⟩
  · rw [← mem_prepared_iff, hprepared] at hx
    rw [List.mem_singleton.mp hx]
    decide
  · rw [he]
    exact fun f hf => by cases hf
  · rw [← mem_prepared_iff, hprepared]
    exact List.mem_singleton_self awkward

/-- Its table has a line with this xid. -/
theorem xids_unambiguous_awkward : ∃ text p' entries,
    (recover awkwardNames (ascii "list") (ascii "p") []).run ([], awkwardShelf.plant) =
      (.ok .done, text, p') ∧ readListing? text = some entries ∧
        awkward ∈ entries.map Entry.xid := by
  obtain ⟨R, host, pool, ha, hmem⟩ := answers_awkwardShelf
  obtain ⟨text, p', entries, hrun, htable⟩ :=
    xids_unambiguous.2.2.2 awkwardNames (ascii "p") [] [] _ _ _ _ _ _ _ ha rfl
  exact ⟨text, p', entries, hrun, htable.read, (htable.exact awkward).mpr hmem⟩

end Run
end Coordinator.Command
