import Coordinator.Proofs.Plant.Listing

/-! # Branches prepared over one pool, and all other pools

A participant starts, ends and prepares a branch over a pool to an engine (`prepareBranch`).  If the
engine is quiet and has no branch of that xid, and the pool has a free place, this succeeds: the
engine has one prepared branch more, and the pool has opened one connection
(`prepareBranch_accepted`).  What the plant has beside that engine and that pool is as it was
(`Elsewhere`): another pool to the same engine finds the branch, and a pool to another engine finds
what it would have found before. -/
namespace Coordinator.Plant

open Engine (ConnectionId)

variable {h : HostId} {k : Nat} {R : Table RegistryRef (Registry Line)} {host host' : Host}
  {pool : Pool Line} {p p₀ : Plant} {n : ConnectionId} {P : Participant} {x y : Bytes}
  {e e' : Engine}

/-- Starts, ends and prepares a branch; whoever asks for it has the session afterwards. -/
def prepareBranch (P : Participant) (g : Gateway Plant Line) (x : Bytes) :
    Action Plant (Session Line) := do
  let s ← P.start g x
  let s ← Participant.onHeld g s (P.finish (g.within .second) .first)
  Participant.onHeld g s (P.prepare (g.within .second) .first)

/-! ## Beside an engine and a pool -/

/-- Beside one engine and one pool, a plant is as `p₀` was. -/
structure Elsewhere (h : HostId) (k : Nat) (p₀ p : Plant) : Prop where
  hosts : ∀ h', h' ≠ h → p.hosts.get? h' = p₀.hosts.get? h'
  pools : ∀ r, r ≠ poolOf h k → p.pools.get? r = p₀.pools.get? r

theorem Elsewhere.refl (p : Plant) : Elsewhere h k p p := ⟨fun _ _ => rfl, fun _ _ => rfl⟩

theorem Elsewhere.set_host (hp : Elsewhere h k p₀ p) (host : Host) :
    Elsewhere h k p₀ ((hostCell h).set host p) where
  hosts h' hh := by
    show (p.hosts.modify h fun _ => host).get? h' = _
    rw [Table.get?_modify, if_neg hh, hp.hosts h' hh]
  pools := hp.pools

theorem Elsewhere.set_pool (hp : Elsewhere h k p₀ p) (pool : Pool Line) :
    Elsewhere h k p₀ ((poolCell (poolOf h k)).set pool p) where
  hosts := hp.hosts
  pools r hr := by
    show (p.pools.modify (poolOf h k) fun _ => pool).get? r = _
    rw [Table.get?_modify, if_neg hr, hp.pools r hr]

/-- The plant has an engine and a pool as said, and is as `p₀` was beside them. -/
structure At (h : HostId) (k : Nat) (R : Table RegistryRef (Registry Line)) (p₀ : Plant)
    (host : Host) (pool : Pool Line) (p : Plant) : Prop where
  holds : Holds h k R host pool p
  elsewhere : Elsewhere h k p₀ p

theorem At.log (hp : At h k R p₀ host pool p) (r : Journal.Record) :
    At h k R p₀ host pool ((counter h k).log r p) :=
  ⟨hp.holds.log r, ⟨hp.elsewhere.hosts, hp.elsewhere.pools⟩⟩

theorem At.set_host (hp : At h k R p₀ host pool p) (host' : Host) :
    At h k R p₀ host' pool ((hostCell h).set host' p) :=
  ⟨hp.holds.set_host host', hp.elsewhere.set_host host'⟩

theorem At.set_pool (hp : At h k R p₀ host pool p) (pool' : Pool Line) :
    At h k R p₀ host pool' ((poolCell (poolOf h k)).set pool' p) :=
  ⟨hp.holds.set_pool pool', hp.elsewhere.set_pool pool'⟩

theorem carried_at (hn : host.isBroken n = false) :
    Carried h k n fun e => At h k R p₀ { host with engine := e } pool := by
  intro sql rows e e' hr
  have hsend : (sendOn h n sql).Meets (At h k R p₀ { host with engine := e } pool)
      (fun _ => At h k R p₀ { host with engine := e' } pool) fun _ _ => False := by
    intro p hp
    rw [send_run hp.holds hn, hr]
    exact hp.set_host _
  exact hsend.bind fun _ => .pure fun _ hp => hp

/-- A pool that has no connection waiting, but a free place, opens one. -/
theorem acquire_opens (hidle : pool.idle = []) (hroom : pool.live < pool.capacity)
    (hon : host.engine.available = true) :
    (counter h k).acquire.Meets (At h k R p₀ host pool)
      (fun l p => l = lineTo h k host.engine.nextConnection ∧
        At h k R p₀ (connected host) { pool with live := pool.live + 1 } p)
      fun _ _ => False := by
  intro p hp
  have hco : pool.checkOut (fun l =>
      (alone.lines (.engine h) (some (poolOf h k))).isHealthy l p) =
        (.reserved, [], { pool with live := pool.live + 1 }) := by
    simp only [Pool.checkOut, hidle, List.takeWhile_nil, List.dropWhile_nil, List.length_nil,
      Nat.sub_zero, if_pos hroom]
  have hp' := hp.set_pool { pool with live := pool.live + 1 }
  rw [acquire_run hp.holds hco]
  rw [settle, Action.run_onFailure, List.foldl_nil, connect_run hp'.holds, if_pos hon]
  exact ⟨rfl, hp'.set_host _⟩

/-! ## A branch more -/

/-- The engine is there, no failure is in store, and no branch is unprepared. -/
structure Quiet (e : Engine) : Prop where
  available : e.available = true
  injected : e.injected = []
  prepared : ∀ y b, e.branches.get? y = some b → b.stage = .prepared

theorem quiet_new : Quiet {} := ⟨rfl, rfl, nofun⟩

theorem Quiet.clear (he : Quiet e) (sql : Bytes) : e.Clear sql := by
  unfold Engine.Clear
  rw [he.injected]
  exact nofun

theorem Quiet.free (he : Quiet e) (n : ConnectionId) : e.branches.hasOpen n = false := by
  refine Engine.Branches.hasOpen_eq_false_iff.mpr fun y b hy =>
    Bool.eq_false_iff.mpr fun hopen => ?_
  exact (Engine.Branches.isOpenOn_iff.mp hopen).2 (he.prepared y b hy)

/-- The engine has the prepared branch of `x` more. -/
structure Gains (x : Bytes) (e e' : Engine) : Prop where
  quiet : Quiet e'
  prepared : ∀ y, IsPrepared e' y ↔ y = x ∨ IsPrepared e y

/-- The engine takes a start, an end and a prepare for an xid that it has no branch of. -/
theorem accepts_branch {q : Bytes} (he : Quiet e) (hq : Xa.Xid.quoteMysql x = .ok q)
    (hx : e.branches.get? x = none) : ∃ e₁ e₂ e₃,
      (Engine.run n (ascii "XA START " ++ q)).run e = (.ok [], e₁) ∧
      (Engine.run n (ascii "XA END " ++ q)).run e₁ = (.ok [], e₂) ∧
      (Engine.run n (ascii "XA PREPARE " ++ q)).run e₂ = (.ok [], e₃) ∧ Gains x e e₃ := by
  let started := e.branches.insert x ⟨.active, n⟩
  let ended := started.insert x ⟨.idle, n⟩
  let prepared := ended.insert x .detached
  have hstarted : started.get? x = some ⟨.active, n⟩ := (Table.get?_insert ..).trans (if_pos rfl)
  have hended : ended.get? x = some ⟨.idle, n⟩ := (Table.get?_insert ..).trans (if_pos rfl)
  have hclear := he.clear
  let e₁ := e.stepped (ascii "XA START " ++ q) .start started
  let e₂ := e₁.stepped (ascii "XA END " ++ q) .finish ended
  let e₃ := e₂.stepped (ascii "XA PREPARE " ++ q) .prepare prepared
  have hbranch (y : Bytes) :
      prepared.get? y = if y = x then some .detached else e.branches.get? y := by
    simp only [prepared, ended, started, Table.get?_insert]
    split <;> rfl
  refine ⟨e₁, e₂, e₃,
    Engine.run_of_moves he.available (hclear _) (Engine.parse_start hq) (.start (he.free n) hx),
    Engine.run_of_moves he.available (hclear _) (Engine.parse_finish hq) (.finish hstarted),
    Engine.run_of_moves he.available (hclear _) (Engine.parse_prepare hq) (.prepare hended),
    ⟨⟨he.available, he.injected, fun y b hy => ?_⟩, fun y => ?_⟩⟩
  · have hy : prepared.get? y = some b := hy
    rw [hbranch] at hy
    split at hy
    · cases hy
      rfl
    · exact he.prepared y b hy
  · show (∃ b, prepared.get? y = some b ∧ _) ↔ _
    rw [hbranch]
    split
    · next hyx => exact ⟨fun _ => .inl hyx, fun _ => ⟨.detached, rfl, rfl⟩⟩
    · next hyx => exact ⟨.inr, fun hor => hor.resolve_left hyx⟩

/-- A branch is started on a connection that the pool opens. -/
theorem start_accepted {sql : Bytes} {rows : Sql.Rows} (hsql : P.dialect.start x = .ok sql)
    (hidle : pool.idle = []) (hroom : pool.live < pool.capacity)
    (hon : host.engine.available = true)
    (hr : (Engine.run host.engine.nextConnection sql).run (connected host).engine =
      (.ok rows, e')) :
    (P.start (counter h k) x).Meets (At h k R p₀ host pool)
      (fun s p => s = ⟨x, some (lineTo h k host.engine.nextConnection), .started⟩ ∧
        At h k R p₀ { connected host with engine := e' } { pool with live := pool.live + 1 } p)
      fun _ _ => False := by
  intro p hp
  obtain ⟨l, p', hrun, rfl, hp'⟩ := (acquire_opens hidle hroom hon).returns hp
  rw [start_run hsql hrun]
  exact opening_accepted (e := (connected host).engine) (carried_at (isBroken_connected host))
    (fun _ r hp => hp.log r) hr p' hp'

/-- A session in hand moves on by a statement that the engine takes. -/
theorem step_accepted (drive : Drive) {s moved : Session Line} {q text : Bytes} {rows : Sql.Rows}
    {record : Journal.Record} {operation : Action (Session Line × Plant) Unit}
    (hd : P.dialect ≠ .postgres) (hq : Xa.Xid.quoteMysql s.xid = .ok q)
    (hn : host.isBroken n = false) (hcheck : drive.check P s = .ok (lineTo h k n))
    (htexts : drive.texts s.state q = [text])
    (hr : (Engine.run n text).run e = (.ok rows, e'))
    (hop : Participant.onHeld (counter h k) s operation = (do
      let _ ← (drive.perform P (counter h k) s).onFailure fun _ => s.drop (counter h k).toKeeper
      .update ((counter h k).log record)
      return moved : Action Plant (Session Line))) :
    (Participant.onHeld (counter h k) s operation).Meets
      (At h k R p₀ { host with engine := e } pool)
      (fun s' p => s' = moved ∧ At h k R p₀ { host with engine := e' } pool p)
      fun _ _ => False := by
  have hsql : drive.statements P.dialect s = .ok [text] := by
    rw [Drive.statements_eq _ hd, hq, ← htexts]
    rfl
  exact held_accepted (Φ := fun e => At h k R p₀ { host with engine := e } pool)
    (fun _ hp => hp.log record)
    (perform_accepted drive (carried_at hn) hcheck hsql ⟨rows, e', hr, rfl⟩) hop

/-- The pool opens a connection, and over it the branch is prepared. -/
theorem prepareBranch_accepted {q : Bytes} (hd : P.dialect ≠ .postgres)
    (hq : Xa.Xid.quoteMysql x = .ok q) (hidle : pool.idle = []) (hroom : pool.live < pool.capacity)
    (he : Quiet host.engine) (hx : host.engine.branches.get? x = none) :
    (prepareBranch P (counter h k) x).Meets (At h k R p₀ host pool)
      (fun s p => s.xid = x ∧ s.state = .prepared ∧ ∃ host', Gains x host.engine host'.engine ∧
        At h k R p₀ host' { pool with live := pool.live + 1 } p)
      fun _ _ => False := by
  -- A connection more is nothing that the branches could tell.
  have hquiet : Quiet (connected host).engine := ⟨he.available, he.injected, he.prepared⟩
  obtain ⟨e₁, e₂, e₃, hstart, hend, hprepare, hgains⟩ :=
    accepts_branch (n := host.engine.nextConnection) hquiet hq hx
  have hsql : P.dialect.start x = .ok (ascii "XA START " ++ q) := by
    rw [Engine.start_eq hd, hq]
    rfl
  refine (start_accepted hsql hidle hroom he.available hstart).bind fun s => .assuming ?_
  rintro rfl
  have hunbroken := isBroken_connected host
  refine (step_accepted .finish hd hq hunbroken rfl rfl hend Participant.onHeld_finish).bind
    fun s => .assuming ?_
  rintro rfl
  refine (step_accepted .prepare hd hq hunbroken rfl rfl hprepare Participant.onHeld_prepare).mono
    (fun _ hp => hp) (fun s p hp => ?_) fun _ _ hf => hf
  obtain ⟨rfl, hp⟩ := hp
  exact ⟨rfl, rfl, _, ⟨hgains.quiet, hgains.prepared⟩, hp⟩

end Coordinator.Plant
