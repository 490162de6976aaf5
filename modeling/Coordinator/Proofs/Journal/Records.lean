import Coordinator.Participant
import Coordinator.Proofs.Journal.Escape
import Coordinator.Registry

/-! # What records show of an xid

An xid may be any bytes, and a record names it by an escaped field, which is printable.  But the
statements of the protocol carry the xid as it is, but for what a literal escapes, and the text of a
fault may repeat the statement.  A record about a failure shows that text unescaped.  So the journal
is not printable throughout; it is **contained** (`Journal.Contained`): a record is printable, or it
is about a failure, names an xid that is not printable, and nothing but the text of the fault in it
is unprintable, and that only by bytes of the xid.

Here this is traced from the statements, which an xid covers (`Speaks`), to the records. -/
namespace Coordinator

/-! ## Texts and the bytes in them -/

namespace Bytes

variable {x y s t : Bytes}

/-- A text is printable but for bytes of `x`. -/
def Covers (x s : Bytes) : Prop := ∀ b ∈ s, Byte.isPrintable b = true ∨ b ∈ x

theorem IsPrintable.covers (hs : s.IsPrintable) : x.Covers s := fun b hb => .inl (hs b hb)

theorem covers_self (x : Bytes) : x.Covers x := fun _ hb => .inr hb

theorem Covers.append (hs : x.Covers s) (ht : x.Covers t) : x.Covers (s ++ t) := by
  intro b hb
  rcases List.mem_append.mp hb with hb | hb
  · exact hs b hb
  · exact ht b hb

theorem Covers.of_subset (hs : x.Covers s) (ht : t ⊆ s) : x.Covers t := fun b hb => hs b (ht hb)

theorem Covers.trans (hs : x.Covers s) (ht : s.Covers t) : x.Covers t := by
  intro b hb
  rcases ht b hb with hb | hb
  · exact .inl hb
  · exact hs b hb

theorem Covers.isPrintable (hs : x.Covers s) (hx : x.IsPrintable) : s.IsPrintable := by
  intro b hb
  rcases hs b hb with hb | hb
  · exact hb
  · exact hx b hb

theorem IsPrintable.append (hs : s.IsPrintable) (ht : t.IsPrintable) : (s ++ t).IsPrintable := by
  intro b hb
  rcases List.mem_append.mp hb with hb | hb
  · exact hs b hb
  · exact ht b hb

theorem covers_flatten {parts : List Bytes} (h : ∀ s ∈ parts, x.Covers s) :
    x.Covers parts.flatten := by
  intro b hb
  obtain ⟨s, hs, hb⟩ := List.mem_flatten.mp hb
  exact h s hs b hb

end Bytes

namespace Fault

variable {x : Bytes} {f : Fault}

/-- The text that readers of a fault see is a part of it. -/
theorem covers_message (h : x.Covers f.text) : x.Covers f.message :=
  h.of_subset (List.takeWhile_subset _)

theorem covers_of {kind : Kind} {parts : List Bytes} (h : ∀ s ∈ parts, x.Covers s) :
    x.Covers (Fault.of kind parts).message :=
  covers_message (Bytes.covers_flatten h)

theorem isPrintable_of {kind : Kind} {parts : List Bytes} (h : ∀ s ∈ parts, s.IsPrintable) :
    (Fault.of kind parts).message.IsPrintable := by
  have hcovers : Bytes.Covers [] (Fault.of kind parts).message :=
    covers_of fun s hs => (h s hs).covers
  exact hcovers.isPrintable nofun

end Fault

/-! ## Records -/

namespace Journal

/-- A field is printable. -/
structure Field.IsPrintable (f : Field) : Prop where
  key : f.key.IsPrintable
  value : f.value.IsPrintable

theorem Field.isPrintable_text {f : Field} (h : f.IsPrintable) : f.text.IsPrintable := by
  intro b hb
  rcases List.mem_append.mp hb with hb | hb
  · exact h.key b hb
  · rcases List.mem_cons.mp hb with rfl | hb
    · decide
    · exact h.value b hb

theorem Field.isPrintable_ofBytes {key value : Bytes} (hkey : key.IsPrintable) :
    (Field.ofBytes key value).IsPrintable := ⟨hkey, isPrintable_printable value⟩

theorem Field.isPrintable_ofInt {key : Bytes} {n : Int} (hkey : key.IsPrintable) :
    (Field.ofInt key n).IsPrintable := ⟨hkey, Decimal.isPrintable_ofInt n⟩

theorem Record.isPrintable_text {r : Record} (hmessage : r.message.IsPrintable)
    (hfields : ∀ f ∈ r.fields, f.IsPrintable) : r.text.IsPrintable := by
  intro b hb
  rcases Bytes.mem_of_mem_join hb with hb | ⟨s, hs, hb⟩
  · rw [List.mem_singleton.mp hb]
    decide
  · rcases List.mem_cons.mp hs with rfl | hs
    · exact hmessage b hb
    · obtain ⟨f, hf, rfl⟩ := List.mem_map.mp hs
      exact Field.isPrintable_text (hfields f hf) b hb

/-- The field that shows the text of a fault. -/
def errorField (f : Fault) : Field := .ofText (ascii "error") f.message

/-- A record about a failure shows bytes of an xid that it also names. -/
structure Leaks (x : Bytes) (r : Record) : Prop where
  unprintable : ¬ x.IsPrintable
  shows : ∃ front f, r.fields = front ++ [errorField f] ∧ .ofBytes (ascii "xid") x ∈ front ∧
    { r with fields := front }.text.IsPrintable ∧ x.Covers f.message

/-- A record is printable, but for bytes of an xid in the text of a fault. -/
def Contained (r : Record) : Prop := r.text.IsPrintable ∨ ∃ x, Leaks x r

variable {level : Level} {message : Bytes} {fields : List Field} {f : Fault} {x : Bytes}

theorem contained_of_isPrintable (hmessage : message.IsPrintable)
    (hfields : ∀ f ∈ fields, f.IsPrintable) : Contained ⟨level, message, fields⟩ :=
  .inl (Record.isPrintable_text hmessage hfields)

/-- A record about a failure for an xid. -/
theorem contained_of_error (hmessage : message.IsPrintable) (hfields : ∀ f ∈ fields, f.IsPrintable)
    (hxid : .ofBytes (ascii "xid") x ∈ fields) (hf : x.Covers f.message) :
    Contained ⟨level, message, fields ++ [errorField f]⟩ := by
  by_cases hx : x.IsPrintable
  · refine contained_of_isPrintable hmessage fun g hg => ?_
    rcases List.mem_append.mp hg with hg | hg
    · exact hfields g hg
    · rw [List.mem_singleton.mp hg]
      exact ⟨show (ascii "error").IsPrintable by decide, hf.isPrintable hx⟩
  · exact .inr ⟨x, hx, fields, f, rfl, hxid, Record.isPrintable_text hmessage hfields, hf⟩

end Journal

/-! ## Statements -/

namespace Xa

/-- A text made of an xid is as said, or there is a printable fault. -/
def Speaks {α : Type} (good : α → Prop) : Except Xid.QuoteFault α → Prop
  | .ok a => good a
  | .error f => f.fault.message.IsPrintable

variable {x : Bytes}

theorem Speaks.bind {α β : Type} {good : α → Prop} {good' : β → Prop}
    {y : Except Xid.QuoteFault α} {f : α → Except Xid.QuoteFault β} (hy : Speaks good y)
    (hf : ∀ a, good a → Speaks good' (f a)) : Speaks good' (y >>= f) := by
  cases y with
  | ok a => exact hf a hy
  | error e => exact hy

/-- A text that is there is as said. -/
theorem Speaks.of_ok {α : Type} {good : α → Prop} {y : Except Xid.QuoteFault α} {a : α}
    (hy : Speaks good y) (ha : y.mapError Xid.QuoteFault.fault = .ok a) : good a := by
  cases y with
  | ok b => cases ha; exact hy
  | error e => cases ha

theorem covers_enclose {s : Bytes} (hs : x.Covers s) : x.Covers (Xid.enclose s) := by
  intro b hb
  rcases List.mem_append.mp hb with hb | hb
  · rcases List.mem_cons.mp hb with rfl | hb
    · exact .inl (by decide)
    · exact hs b hb
  · rw [List.mem_singleton.mp hb]
    exact .inl (by decide)

theorem covers_mysqlByte {b : UInt8} (hb : b ∈ x) : x.Covers (Xid.mysqlByte b) := by
  unfold Xid.mysqlByte
  split
  · exact Bytes.IsPrintable.covers (by decide)
  · exact Bytes.IsPrintable.covers (by decide)
  · exact Bytes.IsPrintable.covers (by decide)
  · intro c hc
    rw [List.mem_singleton.mp hc]
    exact .inr hb

theorem covers_postgresByte {b : UInt8} (hb : b ∈ x) : x.Covers (Xid.postgresByte b) := by
  unfold Xid.postgresByte
  split
  · exact Bytes.IsPrintable.covers (by decide)
  · intro c hc
    rw [List.mem_singleton.mp hc]
    exact .inr hb

theorem covers_flatMap {f : UInt8 → Bytes} (hf : ∀ b ∈ x, x.Covers (f b)) :
    x.Covers (x.flatMap f) := by
  intro c hc
  obtain ⟨b, hb, hc⟩ := List.mem_flatMap.mp hc
  exact hf b hb c hc

theorem speaks_quoteMysql (x : Bytes) : Speaks x.Covers (Xid.quoteMysql x) := by
  unfold Xid.quoteMysql
  split
  · exact Fault.isPrintable_of (by decide)
  · split
    · exact Fault.isPrintable_of (by simp [Decimal.isPrintable_ofNat]; decide)
    · exact covers_enclose (covers_flatMap fun b hb => covers_mysqlByte hb)

theorem speaks_quotePostgres (x : Bytes) : Speaks x.Covers (Xid.quotePostgres x) := by
  unfold Xid.quotePostgres
  split
  · exact Fault.isPrintable_of (by decide)
  · split
    · exact Fault.isPrintable_of (by simp [Decimal.isPrintable_ofNat]; decide)
    · split
      · exact Fault.isPrintable_of (by decide)
      · exact covers_enclose (covers_flatMap fun b hb => covers_postgresByte hb)

namespace Dialect

variable (d : Dialect)

theorem speaks_quote (x : Bytes) : Speaks x.Covers (d.quote x) := by
  cases d with
  | postgres => exact speaks_quotePostgres x
  | mysql | strict => exact speaks_quoteMysql x

/-- A statement with a literal in it. -/
theorem speaks_literal {front back : Bytes} (hfront : front.IsPrintable) (hback : back.IsPrintable)
    (x : Bytes) : Speaks x.Covers (do return front ++ (← d.quote x) ++ back) :=
  (d.speaks_quote x).bind fun _ hq => (hfront.covers.append hq).append hback.covers

theorem speaks_start (x : Bytes) : Speaks x.Covers (d.start x) := by
  refine (d.speaks_quote x).bind fun q hq => ?_
  cases d with
  | postgres => exact Bytes.IsPrintable.covers (by decide)
  | mysql | strict => exact (Bytes.IsPrintable.covers (by decide)).append hq

theorem speaks_finish (x : Bytes) : Speaks x.Covers (d.finish x) := by
  cases d with
  | postgres => exact Bytes.IsPrintable.covers (by decide)
  | mysql | strict =>
    exact (speaks_quote _ x).bind fun q hq => (Bytes.IsPrintable.covers (by decide)).append hq

theorem speaks_prepare (x : Bytes) : Speaks x.Covers (d.prepare x) := by
  refine (d.speaks_quote x).bind fun q hq => ?_
  cases d with
  | postgres | mysql | strict => exact (Bytes.IsPrintable.covers (by decide)).append hq

theorem speaks_commit (x : Bytes) : Speaks x.Covers (d.commit x) := by
  refine (d.speaks_quote x).bind fun q hq => ?_
  cases d with
  | postgres | mysql | strict => exact (Bytes.IsPrintable.covers (by decide)).append hq

theorem speaks_commitOnePhase (x : Bytes) : Speaks x.Covers (d.commitOnePhase x) := by
  cases d with
  | postgres => exact Bytes.IsPrintable.covers (by decide)
  | mysql | strict => exact speaks_literal _ (by decide) (by decide) x

theorem speaks_rollback (x : Bytes) (state : State) :
    Speaks (fun sqls => ∀ sql ∈ sqls, x.Covers sql) (d.rollback x state) := by
  have hlast (front : Bytes) (hfront : front.IsPrintable) {q : Bytes} (hq : x.Covers q) :
      x.Covers (front ++ q) := hfront.covers.append hq
  cases d with
  | postgres =>
    simp only [rollback]
    split
    · refine (speaks_quote .postgres x).bind fun q hq => ?_
      exact List.forall_mem_singleton.mpr (hlast _ (by decide) hq)
    · refine List.forall_mem_singleton.mpr (Bytes.IsPrintable.covers ?_)
      decide
  | mysql | strict =>
    refine (speaks_quote _ x).bind fun q hq => ?_
    simp only
    split
    · refine (speaks_finish _ x).bind fun sql hsql => ?_
      exact List.forall_mem_cons.mpr ⟨hsql,
        List.forall_mem_singleton.mpr (hlast _ (by decide) hq)⟩
    · exact List.forall_mem_singleton.mpr (hlast _ (by decide) hq)

end Dialect
end Xa

/-! ## The records of components -/

section Components
variable {κ σ : Type} {P : Participant} {s : Session κ} {x operation : Bytes} {f : Fault}

open Journal

theorem Xa.State.isPrintable_name (state : Xa.State) : state.name.IsPrintable := by
  cases state with
  | idle | started | ended | prepared | committed | rolledBack => decide

/-- Fields with names and printable values, and an xid. -/
theorem Journal.isPrintable_xid (x : Bytes) : (Field.ofBytes (ascii "xid") x).IsPrintable :=
  Field.isPrintable_ofBytes (by decide)

theorem Session.contained_dropped (s : Session κ) : Contained s.droppedRecord := by
  refine contained_of_isPrintable (by decide) ?_
  simp only [List.forall_mem_cons, List.not_mem_nil, false_implies, implies_true, and_true]
  exact ⟨isPrintable_xid _, show (ascii "state").IsPrintable by decide, s.state.isPrintable_name⟩

namespace Participant

theorem isPrintable_field (hP : P.name.IsPrintable) : P.field.IsPrintable :=
  ⟨show (ascii "participant").IsPrintable by decide, hP⟩

/-- The fields with which a record about a branch starts. -/
theorem isPrintable_front (hP : P.name.IsPrintable) (x : Bytes) :
    ∀ f ∈ [P.field, .ofBytes (ascii "xid") x], f.IsPrintable := by
  simp only [List.forall_mem_cons, List.not_mem_nil, false_implies, implies_true, and_true]
  exact ⟨isPrintable_field hP, isPrintable_xid x⟩

theorem contained_done (hP : P.name.IsPrintable) {level : Level} {message : String}
    (hmessage : (ascii message).IsPrintable) (x : Bytes) :
    Contained (P.doneRecord level message x) :=
  contained_of_isPrintable hmessage (isPrintable_front hP x)

theorem contained_failed (hP : P.name.IsPrintable) (hoperation : operation.IsPrintable)
    (hf : x.Covers f.message) : Contained (P.failedRecord operation x f) := by
  have hfront : ∀ f ∈ [P.field, .ofText (ascii "op") operation, .ofBytes (ascii "xid") x],
      f.IsPrintable := by
    simp only [List.forall_mem_cons, List.not_mem_nil, false_implies, implies_true, and_true]
    exact ⟨isPrintable_field hP, ⟨show (ascii "op").IsPrintable by decide, hoperation⟩,
      isPrintable_xid x⟩
  exact contained_of_error (by decide) hfront (by simp) hf

theorem contained_rolledBack (hP : P.name.IsPrintable) (s : Session κ) :
    Contained (P.rolledBackRecord s) := by
  refine contained_of_isPrintable (by decide) ?_
  simp only [List.forall_mem_cons, List.not_mem_nil, false_implies, implies_true, and_true]
  exact ⟨isPrintable_field hP, isPrintable_xid _, show (ascii "from").IsPrintable by decide,
    s.state.isPrintable_name⟩

theorem contained_queryFailed (hP : P.name.IsPrintable) (hf : f.message.IsPrintable) :
    Contained (P.queryFailedRecord f) := by
  refine contained_of_isPrintable (by decide) ?_
  simp only [List.forall_mem_cons, List.not_mem_nil, false_implies, implies_true, and_true]
  exact ⟨isPrintable_field hP, show (ascii "error").IsPrintable by decide, hf⟩

theorem contained_skipped (hP : P.name.IsPrintable) (hf : x.Covers f.message) :
    Contained (P.skippedRecord x f) :=
  contained_of_error (by decide) (isPrintable_front hP x) (by simp) hf

theorem contained_scanned (hP : P.name.IsPrintable) (n : Nat) : Contained
    ⟨.debug, ascii "Recovery scan", [P.field, .ofInt (ascii "prepared") n]⟩ := by
  refine contained_of_isPrintable (by decide) ?_
  simp only [List.forall_mem_cons, List.not_mem_nil, false_implies, implies_true, and_true]
  exact ⟨isPrintable_field hP, Field.isPrintable_ofInt (by decide)⟩

theorem contained_swept (hP : P.name.IsPrintable) (stem : Bytes) (n : Sweep) :
    Contained (P.sweptRecord stem n) := by
  refine contained_of_isPrintable (by decide) ?_
  simp only [List.forall_mem_cons, List.not_mem_nil, false_implies, implies_true, and_true]
  exact ⟨isPrintable_field hP, Field.isPrintable_ofBytes (by decide),
    Field.isPrintable_ofInt (by decide), Field.isPrintable_ofInt (by decide)⟩

end Participant

namespace Registry.Site

variable {r : Site σ κ} {message : String} {more : List Field}

/-- A record about an xid without the text of a fault. -/
theorem contained_record (hP : r.participant.name.IsPrintable)
    (hmessage : (ascii message).IsPrintable) (x : Bytes) (hmore : ∀ f ∈ more, f.IsPrintable) :
    Contained (r.record message x more) := by
  refine contained_of_isPrintable hmessage ?_
  simp only [List.forall_mem_cons]
  exact ⟨Participant.isPrintable_field hP, isPrintable_xid x, hmore⟩

theorem contained_record_error (hP : r.participant.name.IsPrintable)
    (hmessage : (ascii message).IsPrintable) (hf : x.Covers f.message) :
    Contained (r.record message x [errorField f]) :=
  contained_of_error hmessage (Participant.isPrintable_front hP x) (by simp) hf

end Registry.Site
end Components
end Coordinator
