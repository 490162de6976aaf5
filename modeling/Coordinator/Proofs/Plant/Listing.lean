import Coordinator.Proofs.Decimal
import Coordinator.Proofs.Plant.Recovery

/-! # Listings of prepared branches

The engine answers a recovery query with one row of texts for each prepared branch, and the dialect
reads the rows back: numbers from their decimal text, the global part of the xid cut out of the
data.  Whatever bytes an xid has, reading undoes writing (`ofRow_recoveryRow`).  So **listings are
lossless** (`recover_run`): over any engine, whatever its branches are and whoever holds
them, a listing has each prepared branch once and no other branch, finding a branch goes by the
listing, and neither changes anything on the engine.

The one thing asked of the pool is that its waiting connections lead to the engine, and that none of
them that will be closed has an unprepared branch (`Tended`).  Pools that lend to sessions are so
(`Custody.tended`). -/
namespace Coordinator.Plant

open Engine (Branch ConnectionId)

/-! ## Rows -/

/-- What a listing says of the prepared branch of an xid. -/
structure Describes (b : Xa.Recovered) (x : Bytes) : Prop where
  formatId : b.formatId = 1
  globalLength : b.globalLength.toInt = x.length
  qualifierLength : b.qualifierLength = 0
  data : b.data = x
  xid : b.xid = x

/-- The description of an xid. -/
def describe (x : Bytes) : Xa.Recovered := ⟨1, Int64.ofNat x.length, 0, x, x⟩

theorem describes_describe {x : Bytes} (h : x.length < 2 ^ 63) : Describes (describe x) x :=
  ⟨rfl, Int64.toInt_ofNat_of_lt h, rfl, rfl, rfl⟩

theorem int64_of_cell {row : Sql.Row} {column : Int} {c : Bytes} {n : Int64}
    (hcell : row.cell column = .ok (some c)) (hread : Decimal.readInt64? c = some n) :
    row.int64 column = .ok n := by
  simp only [Sql.Row.int64, hcell, bind, Except.bind, hread, pure, Except.pure]

/-- The row of a branch is read as its description. -/
theorem ofRow_recoveryRow {x : Bytes} (h : x.length < 2 ^ 63) :
    Xa.Recovered.ofRow (Engine.recoveryRow x) = .ok (describe x) := by
  have hformat : (Engine.recoveryRow x).int64 0 = .ok 1 := rfl
  have hglobal : (Engine.recoveryRow x).int64 1 = .ok (Int64.ofNat x.length) :=
    int64_of_cell rfl (Decimal.readInt64?_ofNat h)
  have hqualifier : (Engine.recoveryRow x).int64 2 = .ok 0 := rfl
  have hdata : (Engine.recoveryRow x).text 3 = .ok x := rfl
  -- The whole data is the global part.
  have hcut : x.take (Int64.ofNat x.length).toInt.toNat = x := by
    rw [Int64.toInt_ofNat_of_lt h]
    exact List.take_length
  unfold Xa.Recovered.ofRow
  rw [hformat, hglobal, hqualifier, hdata]
  simp only [mapError_ok, bind, Except.bind, pure, Except.pure, hcut]
  rfl

/-- The rows of branches are read as their descriptions, in order. -/
theorem mapM_recoveryRow {xs : List Bytes} (h : ∀ x ∈ xs, x.length < 2 ^ 63) :
    (xs.map Engine.recoveryRow).mapM Xa.Recovered.ofRow = .ok (xs.map describe) := by
  induction xs with
  | nil => rfl
  | cons x xs ih =>
    rw [List.map_cons, List.mapM_cons, ofRow_recoveryRow (h x List.mem_cons_self),
      ih fun y hy => h y (List.mem_cons_of_mem _ hy)]
    rfl

/-- A row that is read is that of an xid whose length is a number of the row. -/
theorem length_of_ofRow {x : Bytes} {b : Xa.Recovered}
    (h : Xa.Recovered.ofRow (Engine.recoveryRow x) = .ok b) : x.length < 2 ^ 63 := by
  by_contra hlong
  have hunread : (Engine.recoveryRow x).int64 1 =
      .error (.notInteger 1 (Decimal.ofNat x.length)) := by
    have hcell : (Engine.recoveryRow x).cell 1 = .ok (some (Decimal.ofNat x.length)) := rfl
    rw [Sql.Row.int64, hcell]
    simp only [bind, Except.bind, Decimal.readInt64?_ofNat_eq_none (Nat.le_of_not_lt hlong), throw,
      throwThe, MonadExceptOf.throw]
  have hformat : (Engine.recoveryRow x).int64 0 = .ok 1 := rfl
  unfold Xa.Recovered.ofRow at h
  rw [hformat, hunread] at h
  cases h

/-- Rows that are read describe their branches. -/
theorem describe_of_mapM {xs : List Bytes} {found : List Xa.Recovered}
    (h : (xs.map Engine.recoveryRow).mapM Xa.Recovered.ofRow = .ok found) :
    (∀ x ∈ xs, x.length < 2 ^ 63) ∧ found = xs.map describe := by
  have hfits : ∀ x ∈ xs, x.length < 2 ^ 63 := by
    induction xs generalizing found with
    | nil => exact nofun
    | cons x xs ih =>
      rw [List.map_cons, List.mapM_cons] at h
      cases hx : Xa.Recovered.ofRow (Engine.recoveryRow x) with
      | error f => rw [hx] at h; cases h
      | ok b =>
        cases hxs : (xs.map Engine.recoveryRow).mapM Xa.Recovered.ofRow with
        | error f => rw [hx, hxs] at h; cases h
        | ok rest => exact List.forall_mem_cons.mpr ⟨length_of_ofRow hx, ih hxs⟩
  exact ⟨hfits, Except.ok.inj (h.symm.trans (mapM_recoveryRow hfits))⟩

/-! ## Listings -/

section Engine
variable {e : Engine} {n : ConnectionId}

/-- The xids of an engine's prepared branches are no longer than a text can be, which is less than
`2 ^ 63` bytes. -/
def Representable (e : Engine) : Prop := ∀ x, IsPrepared e x → x.length < 2 ^ 63

theorem mem_prepared_iff {x : Bytes} : x ∈ e.branches.prepared ↔ IsPrepared e x := by
  rw [Engine.Branches.prepared, List.mem_reverse, List.mem_map]
  constructor
  · rintro ⟨⟨y, b⟩, hmem, rfl⟩
    obtain ⟨hentry, hstage⟩ := List.mem_filter.mp hmem
    exact ⟨b, (Table.mem_entries_iff _ _ _).mp hentry, of_decide_eq_true hstage⟩
  · rintro ⟨b, hb, hstage⟩
    exact ⟨(x, b), List.mem_filter.mpr
      ⟨(Table.mem_entries_iff _ _ _).mpr hb, decide_eq_true hstage⟩, rfl⟩

/-- No xid is there twice. -/
theorem nodup_prepared (e : Engine) : e.branches.prepared.Nodup := by
  rw [Engine.Branches.prepared, List.nodup_reverse]
  exact e.branches.nodup.sublist (List.filter_sublist.map _)

/-- A listing of the prepared branches of an engine: each once, with what there is to say of it. -/
structure ListsAll (e : Engine) (found : List Xa.Recovered) : Prop where
  once : (found.map Xa.Recovered.xid).Nodup
  exact : ∀ x, x ∈ found.map Xa.Recovered.xid ↔ IsPrepared e x
  describes : ∀ b ∈ found, Describes b b.xid

theorem listsAll (hfits : Representable e) : ListsAll e (e.branches.prepared.map describe) := by
  have hxids : (e.branches.prepared.map describe).map Xa.Recovered.xid = e.branches.prepared := by
    rw [List.map_map]
    exact List.map_id _
  refine ⟨by rw [hxids]; exact nodup_prepared e, fun x => by rw [hxids]; exact mem_prepared_iff,
    fun b hb => ?_⟩
  obtain ⟨x, hx, rfl⟩ := List.mem_map.mp hb
  exact describes_describe (hfits x (mem_prepared_iff.mp hx))

/-- The engine's answer to a recovery query, and what the query does to it. -/
theorem run_recover (hon : e.available = true) (hclear : e.Clear (ascii "XA RECOVER")) :
    ∃ e', (Engine.run n (ascii "XA RECOVER")).run e =
        (.ok (e.branches.prepared.map Engine.recoveryRow), e') ∧ Undisturbed e e' ∧
      e'.branches = e.branches := by
  rw [Engine.run_of_read hon hclear (s := .recover) rfl]
  exact ⟨_, rfl, ⟨fun _ => rfl, rfl, rfl, rfl⟩, rfl⟩

end Engine

/-! ## Over a pool -/

section Pool
variable {h : HostId} {k : Nat} {exact : Prop} {R : Table RegistryRef (Registry Line)}
  {loans : List Loan} {host : Host} {pool : Pool Line} {p p' : Plant} {n : ConnectionId}
  {P : Participant} {x : Bytes}

/-- The waiting connections of a pool lead to its engine, and those that will be closed, because
they are broken or poisoned, have no unprepared branch. -/
structure Tended (h : HostId) (k : Nat) (host : Host) (pool : Pool Line) : Prop where
  idle : ∀ l ∈ pool.idle, l = lineTo h k l.number
  spent : ∀ l ∈ pool.idle, host.isBroken l.number = true ∨ host.isPoisoned l.number = true →
    host.engine.branches.hasOpen l.number = false

theorem Custody.tended (hc : Custody (poolOf h k) exact loans host pool) :
    Tended h k host pool := ⟨hc.idle, fun _ hl _ => hc.free_of_idle hl⟩

theorem isPoisoned_of_close {m : ConnectionId} (hn : (host.close m).isPoisoned n = true) :
    host.isPoisoned n = true := by
  have herase : ((host.links.erase m).get? n).any (·.poisoned) = true := hn
  rw [Table.get?_erase] at herase
  split at herase
  · cases herase
  · exact herase

theorem Undisturbed.hasOpen_eq_false {e e' : Engine} (hu : Undisturbed e e')
    (hn : e.branches.hasOpen n = false) : e'.branches.hasOpen n = false :=
  Engine.Branches.hasOpen_of_fewer (fun y _ hy => (hu.branches y).symm.trans hy) hn

theorem Undisturbed.trans {e e' e'' : Engine} (h : Undisturbed e e') (h' : Undisturbed e' e'') :
    Undisturbed e e'' where
  branches y := (h'.branches y).trans (h.branches y)
  committed := h'.committed.trans h.committed
  available := h'.available.trans h.available
  injected := h'.injected.trans h.injected

/-- A listing of an undisturbed engine is one of the engine before. -/
theorem ListsAll.of_undisturbed {e e' : Engine} {found : List Xa.Recovered}
    (hall : ListsAll e' found) (hu : Undisturbed e e') : ListsAll e found where
  once := hall.once
  exact x := (hall.exact x).trans hu.isPrepared_iff
  describes := hall.describes

/-- What is known of an engine and its connections while waiting ones are closed and new ones are
opened. -/
structure Kept (host host' : Host) : Prop where
  undisturbed : Undisturbed host.engine host'.engine
  unbroken : ∀ n, host.isBroken n = false → host'.isBroken n = false
  poisoned : ∀ n, host'.isPoisoned n = true → host.isPoisoned n = true

theorem Kept.refl (host : Host) : Kept host host := ⟨.refl _, fun _ h => h, fun _ h => h⟩

/-- A connection closes without a branch. -/
theorem Kept.close {host' : Host} (hk : Kept host host')
    (hfree : host'.engine.branches.hasOpen n = false) : Kept host (host'.close n) where
  undisturbed := hk.undisturbed.disconnect hfree
  unbroken m hm := isBroken_close (hk.unbroken m hm)
  poisoned m hm := hk.poisoned m (isPoisoned_of_close hm)

/-- With the engine there, a waiting connection can take statements unless it is broken. -/
theorem Tended.isHealthy_eq (ht : Tended h k host pool) (hp : Holds h k R host pool p)
    (hon : host.engine.available = true) {l : Line} (hl : l ∈ pool.idle) :
    (alone.lines (.engine h) (some (poolOf h k))).isHealthy l p = !host.isBroken l.number := by
  have hhealthy : (alone.lines (.engine h) (some (poolOf h k))).isHealthy l p =
      host.isHealthy l.number := by
    rw [← hp.get_host]
    conv_lhs => rw [ht.idle l hl]
    rfl
  rw [hhealthy, Host.isHealthy, hon, Bool.and_true]

/-- A connection of a tended pool is lent, and nothing happens to the branches. -/
theorem acquire_tended (hp : Holds h k R host pool p) (ht : Tended h k host pool)
    (hon : host.engine.available = true) {l : Line}
    (ha : (counter h k).acquire.run p = (.ok l, p')) :
    ∃ n host' pool', l = lineTo h k n ∧ Holds h k R host' pool' p' ∧
      Undisturbed host.engine host'.engine ∧ host'.isBroken n = false ∧
      (host'.isPoisoned n = true → host'.engine.branches.hasOpen n = false) := by
  have hout := Pool.checkOut_checkedOut
    (fun l => (alone.lines (.engine h) (some (poolOf h k))).isHealthy l p) pool
  rcases hco : pool.checkOut (fun l =>
    (alone.lines (.engine h) (some (poolOf h k))).isHealthy l p) with ⟨outcome, bad, pool'⟩
  rw [hco] at hout
  rw [acquire_run hp hco] at ha
  -- What is closed was broken, and so had no branch.
  have hclosed (hidle : bad ⊆ pool.idle) (hbad : ∀ l ∈ bad,
      (alone.lines (.engine h) (some (poolOf h k))).isHealthy l p = false) :
      ∃ host' p₁, bad.foldl (fun p l => (alone.lines (.engine h) (some (poolOf h k))).close l
          (alone.log pool'.discardRecord p)) ((poolCell (poolOf h k)).set pool' p) = p₁ ∧
        Holds h k R host' pool' p₁ ∧ Kept host host' := by
    have hfree : ∀ l ∈ bad, host.engine.branches.hasOpen l.number = false := by
      intro l hl
      have hbroken := hbad l hl
      rw [ht.isHealthy_eq hp hon (hidle hl), Bool.not_eq_false'] at hbroken
      exact ht.spent l (hidle hl) (Or.inl hbroken)
    have hkept := foldl_close (Q := Kept host) (fun _ _ hfree hk => hk.close hfree) (.refl host)
      hfree
    exact ⟨_, _, rfl, (hp.set_pool pool').discard pool'.discardRecord
      fun l hl => ht.idle l (hidle hl), hkept⟩
  cases hout with
  | reuse hidle hbad hc =>
    obtain ⟨host', p₁, hp₁, hh, hkept⟩ := hclosed
      (fun l hl => hidle ▸ List.mem_append_left _ hl) hbad
    rw [hp₁] at ha
    cases ha
    have hl : l ∈ pool.idle := hidle ▸ List.mem_append_right _ List.mem_cons_self
    rw [ht.isHealthy_eq hp hon hl, Bool.not_eq_true'] at hc
    refine ⟨l.number, host', _, ht.idle l hl, hh, hkept.undisturbed, hkept.unbroken _ hc,
      fun hpoisoned => hkept.undisturbed.hasOpen_eq_false ?_⟩
    exact ht.spent l hl (Or.inr (hkept.poisoned _ hpoisoned))
  | reserved hbad hroom =>
    obtain ⟨host', p₁, hp₁, hh, hkept⟩ := hclosed (fun l hl => hl) hbad
    rw [hp₁, settle, Action.run_onFailure, connect_run hh,
      if_pos (hkept.undisturbed.available.trans hon)] at ha
    cases ha
    -- The new connection is as good as new.
    have hlink : (connected host').links.get? host'.engine.nextConnection = some {} := by
      show (host'.links.insert _ {}).get? _ = _
      rw [Table.get?_insert, if_pos rfl]
    have hu := hkept.undisturbed
    refine ⟨_, connected host', _, rfl, hh.set_host _,
      ⟨hu.branches, hu.committed, hu.available, hu.injected⟩, ?_, fun hpoisoned => ?_⟩
    · rw [Host.isBroken, hlink]
      rfl
    · rw [Host.isPoisoned, hlink] at hpoisoned
      cases hpoisoned
  | exhausted hbad hfull => cases ha

/-- A connection that can take statements goes back, or is closed without a branch. -/
theorem Holds.released_unspent (hp : Holds h k R host pool p) (hon : host.engine.available = true)
    (hn : host.isBroken n = false)
    (hfree : host.isPoisoned n = true → host.engine.branches.hasOpen n = false) :
    Undisturbed host.engine (engineOf h ((counter h k).release (lineTo h k n) p)) := by
  cases hpoisoned : host.isPoisoned n with
  | true => exact hp.released (hfree hpoisoned)
  | false =>
    have hback := hp.release n
    have hhealthy : host.isHealthy n = true := by
      rw [Host.isHealthy, hn, hon]
      rfl
    rw [hpoisoned, hhealthy, Bool.not_false, Bool.true_and, if_pos rfl] at hback
    rw [hback.engineOf_eq]
    exact .refl _

/-! ## The operations -/

/-- The recovery query on a connection of the pool. -/
theorem query_recover (hp : Holds h k R host pool p) (hn : host.isBroken n = false)
    (hon : host.engine.available = true) (hclear : host.engine.Clear (ascii "XA RECOVER")) :
    ∃ e' p', ((counter h k).query (lineTo h k n) (ascii "XA RECOVER") []).run p =
        (.ok (host.engine.branches.prepared.map Engine.recoveryRow), p') ∧
      Holds h k R { host with engine := e' } pool p' ∧ Undisturbed host.engine e' := by
  obtain ⟨e', hrun, hu, -⟩ := run_recover (n := n) hon hclear
  have hquery : ((counter h k).query (lineTo h k n) (ascii "XA RECOVER") []).run p =
      (sendOn h n (ascii "XA RECOVER")).run p := rfl
  rw [hquery, send_run hp hn, hrun]
  exact ⟨e', _, rfl, hp.set_host _, hu⟩

theorem recover_eq {d : Xa.Dialect} (hd : d ≠ .postgres) : d.recover = ascii "XA RECOVER" := by
  cases d with
  | postgres => exact absurd rfl hd
  | mysql | strict => rfl

/-- What listing and finding prepared branches come to, over an engine. -/
structure Lists (P : Participant) (h : HostId) (k : Nat) (e : Engine) (p : Plant) : Prop where
  recover : ∃ found p', (P.recover (counter h k)).run p = (.ok found, p') ∧ ListsAll e found ∧
    Undisturbed e (engineOf h p')
  find : ∀ x, ∃ found p', (P.find (counter h k) x).run p = (.ok found, p') ∧
    (found.isSome ↔ IsPrepared e x) ∧ (∀ b, found = some b → Describes b x) ∧
    Undisturbed e (engineOf h p')

/-- The query, the reading of its rows, and the connection given back. -/
theorem recover_run (hd : P.dialect ≠ .postgres) (hp : Holds h k R host pool p)
    (ht : Tended h k host pool) (hfits : Representable host.engine)
    (hon : host.engine.available = true) (hclear : host.engine.Clear (ascii "XA RECOVER"))
    (hlent : ∃ l p', (counter h k).acquire.run p = (.ok l, p')) :
    ∃ found p', (P.recover (counter h k)).run p = (.ok found, p') ∧
      ListsAll host.engine found ∧ Undisturbed host.engine (engineOf h p') := by
  obtain ⟨l, p₁, ha⟩ := hlent
  obtain ⟨n, host₁, pool₁, rfl, hh, hu, hn, hfree⟩ := acquire_tended hp ht hon ha
  have hon₁ : host₁.engine.available = true := hu.available.trans hon
  have hclear₁ : host₁.engine.Clear (ascii "XA RECOVER") := by
    unfold Engine.Clear
    rw [hu.injected]
    exact hclear
  obtain ⟨e₂, p₂, hquery, hh₂, hu₂⟩ := query_recover hh hn hon₁ hclear₁
  have hfits₁ : Representable host₁.engine := fun x hx => hfits x (hu.isPrepared_iff.mp hx)
  have hrows := mapM_recoveryRow fun x hx => hfits₁ x (mem_prepared_iff.mp hx)
  have hback (r : Journal.Record) := (hh₂.log r).released_unspent (n := n)
    (hu₂.available.trans hon₁) hn fun hpoisoned => hu₂.hasOpen_eq_false (hfree hpoisoned)
  let found := host₁.engine.branches.prepared.map describe
  let scanned : Journal.Record := ⟨.debug, ascii "Recovery scan",
    [P.field, .ofInt (ascii "prepared") found.length]⟩
  refine ⟨found, (counter h k).release (lineTo h k n) ((counter h k).log scanned p₂), ?_,
    (listsAll hfits₁).of_undisturbed hu, (hu.trans hu₂).trans (hback scanned)⟩
  have hrecover : ((counter h k).query (lineTo h k n) P.dialect.recover []).run p₁ = _ :=
    recover_eq hd ▸ hquery
  rw [Participant.recover, Gateway.withConnection, Action.run_bind, ha]
  show (Action.ensuring _ _).run p₁ = _
  rw [Action.run_ensuring, Action.run_bind, Action.run_onFailure, hrecover]
  simp only [Action.run_bind, Action.run_ofExcept, hrows]
  rfl

/-- **Listings are lossless.** -/
theorem lists_of_available (hd : P.dialect ≠ .postgres) (hp : Holds h k R host pool p)
    (ht : Tended h k host pool) (hfits : Representable host.engine)
    (hon : host.engine.available = true) (hclear : host.engine.Clear (ascii "XA RECOVER"))
    (hlent : ∃ l p', (counter h k).acquire.run p = (.ok l, p')) :
    Lists P h k host.engine p := by
  obtain ⟨found, p', hrun, hall, hu⟩ := recover_run hd hp ht hfits hon hclear hlent
  refine ⟨⟨found, p', hrun, hall, hu⟩, fun x =>
    ⟨found.find? fun b => b.xid = x, p', ?_, ?_, ?_, hu⟩⟩
  · rw [Participant.find, Action.run_bind, hrun]
    rfl
  · rw [List.find?_isSome, ← hall.exact, List.mem_map]
    simp only [decide_eq_true_iff]
  · intro b hb
    have hxid : b.xid = x := by simpa using List.find?_some hb
    rw [← hxid]
    exact hall.describes b (List.mem_of_find?_eq_some hb)

end Pool

namespace Workshop

/-- Xids that are empty, with a quote, with a NUL and other bytes that literals escape, and long. -/
def strange : List Bytes := [[], ascii "it's", [0, 39, 92, 255], List.replicate 100 97]

/-- A workshop with a prepared branch for each of them, and a session under way. -/
def shelf : Workshop := (new (ascii "8.0") (ascii "orders") 2 50).run
  (strange.map .injectPrepared ++ [.start ⟨ascii "p", .mysql⟩ 0 (ascii "open")])

theorem lists_shelf :
    let P : Participant := ⟨ascii "p", .mysql⟩
    ∃ found p', (P.recover (counter host number)).run shelf.plant = (.ok found, p') ∧
      (found.map Xa.Recovered.xid).Perm strange ∧ (∀ b ∈ found, Describes b b.xid) ∧
      ((P.find (counter host number) (ascii "open")).run shelf.plant).1 = .ok none ∧
      ∀ y, (engineOf host p').branches.get? y = (engineOf host shelf.plant).branches.get? y := by
  have hpassive : ∀ op ∈ strange.map Op.injectPrepared ++
      [.start ⟨ascii "p", .mysql⟩ 0 (ascii "open")], op.IsPassive := by
    simp [strange, Op.IsPassive]
  have horderly : Orderly False shelf :=
    orderly_run (orderly_new (ascii "8.0") (ascii "orders") 2 50) hpassive False.elim
  obtain ⟨host', pool, hh, hc, -⟩ := horderly.lends
  have he : host'.engine = engineOf host shelf.plant := hh.engineOf_eq.symm
  have hprepared : (engineOf host shelf.plant).branches.prepared = strange.reverse := by
    decide +kernel
  have hfits : Representable host'.engine := by
    intro x hx
    have hmem : x ∈ strange.reverse := by rw [← hprepared, ← he]; exact mem_prepared_iff.mpr hx
    have hshort : ∀ x ∈ strange.reverse, x.length < 2 ^ 63 := by decide
    exact hshort x hmem
  have hlists := lists_of_available (P := ⟨ascii "p", .mysql⟩) (by decide) hh hc.tended hfits
    (by rw [he]; rfl) (by rw [he]; exact fun f hf => by cases hf) ⟨_, _, rfl⟩
  rw [he] at hlists
  obtain ⟨found, p', hrun, hall, hu⟩ := hlists.recover
  obtain ⟨missing, p'', hfind, hsome, -, -⟩ := hlists.find (ascii "open")
  have hiff (x : Bytes) : IsPrepared (engineOf host shelf.plant) x ↔ x ∈ strange := by
    rw [← mem_prepared_iff, hprepared, List.mem_reverse]
  refine ⟨found, p', hrun, ?_, hall.describes, ?_, hu.branches⟩
  · refine (List.perm_ext_iff_of_nodup hall.once (by decide)).mpr fun x => ?_
    rw [hall.exact, hiff]
  · rw [hfind]
    cases missing with
    | none => rfl
    | some b =>
      have hopen := (hiff _).mp (hsome.mp rfl)
      exact absurd hopen (by decide)

end Workshop

end Coordinator.Plant
