import Coordinator.Proofs.Client.Statements
import Coordinator.Proofs.Pool.Steps
import Coordinator.Proofs.Table

/-! # Lost connections

A connection is opened, may be lost, and is destroyed (`Standing`).  What that means is up to the
connections; `Standings` is what a pool relies on.  A connection that is lost is not healthy, sends
nothing, and has no way back, whatever becomes of its server.

Customers of a pool interleave, and between their steps the server does what it likes.  **A
connection that a customer loses stays lost** (`lostForGood`): it sends nothing more, it is never
idle and never anybody else's, and when the customer no longer has it, it is destroyed. -/
namespace Coordinator

/-- The connections to a server that is a part of something. -/
def Backend.within {τ σ κ : Type} (part : Cell τ σ) (b : Backend σ κ) : Backend τ κ where
  connect := part.run b.connect
  close c := part.modify (b.close c)
  isHealthy c t := b.isHealthy c (part.get t)
  isPoisoned c t := b.isPoisoned c (part.get t)
  poison c := part.modify (b.poison c)
  execute c sql := part.run (b.execute c sql)
  query c sql params := part.run (b.query c sql params)
  placeholders := b.placeholders

namespace Pool

/-! ## How connections stand -/

/-- How a connection stands. -/
inductive Standing
  | unopened
  | usable
  /-- The server was lost, as far as the connection is concerned. -/
  | lost
  | destroyed
deriving DecidableEq, Repr

/-- What the connections to a server have to do with how they stand.  `weather` is what the server
does by itself. -/
structure Standings {α κ ω : Type} (b : Backend α κ) (weather : ω → α → α) where
  of : κ → α → Standing
  connect : ∀ {s t : α} {c : κ}, b.connect.run s = (.ok c, t) →
    of c s = .unopened ∧ of c t = .usable ∧
      ∀ d, d ≠ c → of d s ≠ .unopened → of d t = of d s
  connect_failed : ∀ {s t : α} {f : Fault}, b.connect.run s = (.error f, t) →
    ∀ d, of d s ≠ .unopened → of d t = of d s
  /-- A fault of the connection loses it, and nothing else does. -/
  submit_usable : ∀ {s : α} {c : κ} (q : Request), of c s = .usable →
    (of c ((b.submit c q).run s).2 = .usable ∧
        ∀ f, ((b.submit c q).run s).1 = .error f → f.kind ≠ .connection) ∨
      of c ((b.submit c q).run s).2 = .lost ∧
        ∃ f, ((b.submit c q).run s).1 = .error f ∧ f.kind = .connection
  submit_others : ∀ (s : α) (c : κ) (q : Request) (d : κ), d ≠ c → of d s ≠ .unopened →
    of d ((b.submit c q).run s).2 = of d s
  /-- A lost connection sends nothing. -/
  submit_lost : ∀ {s : α} {c : κ} (q : Request), of c s = .lost →
    ∃ f, (b.submit c q).run s = (.error f, s) ∧ (q.Matched → f.kind = .connection)
  unhealthy : ∀ {s : α} {c : κ}, of c s = .lost → b.isHealthy c s = false
  close : ∀ {s : α} {c : κ}, of c s ≠ .unopened → of c (b.close c s) = .destroyed
  close_others : ∀ (s : α) (c d : κ), d ≠ c → of d s ≠ .unopened → of d (b.close c s) = of d s
  poison : ∀ (s : α) (c d : κ), of d s ≠ .unopened → of d (b.poison c s) = of d s
  weather : ∀ (w : ω) (s : α) (d : κ), of d s ≠ .unopened → of d (weather w s) = of d s

/-! ## A pool and its customers -/

/-- A server, a pool of connections to it, and a journal. -/
structure Premises (α κ : Type) where
  server : α
  pool : Pool κ
  journal : List Journal.Record := []

namespace Premises

variable {α κ : Type}

def serverCell : Cell (Premises α κ) α := ⟨server, fun server t => { t with server }⟩

def poolCell : Cell (Premises α κ) (Pool κ) := ⟨pool, fun pool t => { t with pool }⟩

def site (b : Backend α κ) : Site (Premises α κ) κ where
  pool := poolCell
  backend := b.within serverCell
  log r t := { t with journal := t.journal ++ [r] }

end Premises

/-- The connection that a customer has. -/
def Phase.held? {κ : Type} : Phase κ → Option κ
  | holding c | returning c _ | closing c => some c
  | _ => none

/-- The phase that a step leads to, unless it was the last one. -/
def Next.onward? {κ : Type} : Next κ → Option (Phase κ)
  | ended _ => none
  | goesOn φ => some φ

/-- The connection that a customer has after a step. -/
def Next.held? {κ : Type} (n : Next κ) : Option κ := n.onward?.bind Phase.held?

/-- The premises and the customers who are there. -/
structure Scene (α κ : Type) where
  premises : Premises α κ
  customers : Table Nat (Phase κ) := ∅

/-- What happens: a customer comes, takes a step, sends a request or poisons its connection; or the
server does something by itself. -/
inductive Event (ω : Type)
  | arrive (i : Nat)
  | advance (i : Nat) (late : Bool)
  | submit (i : Nat) (q : Request)
  | poison (i : Nat)
  | weather (w : ω)

namespace Scene

variable {α κ ω : Type}

/-- A server with a new pool, which nobody uses yet. -/
def new (server : α) (name : Bytes) (capacity : Nat) (timeout : Int64) : Scene α κ :=
  { premises := { server, pool := .new name capacity timeout } }

/-- What is left of a customer after a step. -/
def settle (w : Scene α κ) (i : Nat) : Next κ × Premises α κ → Scene α κ
  | (.ended _, premises) => { premises, customers := w.customers.erase i }
  | (.goesOn φ, premises) => { premises, customers := w.customers.insert i φ }

/-- The server changes. -/
def serve (w : Scene α κ) (f : α → α) : Scene α κ :=
  { w with premises := { w.premises with server := f w.premises.server } }

/-- What a customer does with the connection it holds. -/
def use (w : Scene α κ) (i : Nat) (f : κ → α → α) : Scene α κ :=
  match w.customers.get? i with
  | some (.holding c) => w.serve (f c)
  | _ => w

def step (b : Backend α κ) (weather : ω → α → α) (w : Scene α κ) : Event ω → Scene α κ
  | .arrive i =>
    if w.customers.contains i then w else { w with customers := w.customers.insert i .look }
  | .advance i late =>
    match w.customers.get? i with
    | none => w
    | some φ => w.settle i ((Premises.site b).advance late φ w.premises)
  | .submit i q => w.use i fun c s => ((b.submit c q).run s).2
  | .poison i => w.use i b.poison
  | .weather x => w.serve (weather x)

def run (b : Backend α κ) (weather : ω → α → α) (w : Scene α κ) (events : List (Event ω)) :
    Scene α κ := events.foldl (step b weather) w

end Scene

/-! ## What a customer's move can do -/

section
variable {α κ ω : Type} {b : Backend α κ} {weather : ω → α → α} (stand : Standings b weather)

/-- A customer's move, by what it makes of the connections: those in the pool are usable, those that
the customer has or that are in the pool were there or are new, and no others are concerned. -/
structure Moves (φ : Phase κ) (t : Premises α κ) (next : Next κ) (t' : Premises α κ) : Prop where
  idle : ∀ c ∈ t'.pool.idle, stand.of c t'.server = .usable
  held : ∀ c, next.held? = some c →
    stand.of c t'.server = .usable ∨ stand.of c t'.server = .lost
  reusable : ∀ c, next = .goesOn (.returning c true) → stand.of c t'.server = .usable
  apart : (t'.pool.idle ++ next.held?.toList).Nodup
  source : ∀ c ∈ t'.pool.idle ++ next.held?.toList,
    c ∈ t.pool.idle ++ φ.held?.toList ∨ stand.of c t.server = .unopened
  others : ∀ c, stand.of c t.server ≠ .unopened → c ∉ t.pool.idle ++ φ.held?.toList →
    stand.of c t'.server = stand.of c t.server
  /-- What the customer has lost, it keeps or destroys. -/
  lost : ∀ c, φ.held? = some c → stand.of c t.server = .lost →
    next.held? = some c ∧ stand.of c t'.server = .lost ∨ stand.of c t'.server = .destroyed

/-- What holds of the premises and a customer there. -/
structure Fit (φ : Phase κ) (t : Premises α κ) : Prop where
  idle : ∀ c ∈ t.pool.idle, stand.of c t.server = .usable
  held : ∀ c, φ.held? = some c → stand.of c t.server = .usable ∨ stand.of c t.server = .lost
  reusable : ∀ c, φ = .returning c true → stand.of c t.server = .usable
  apart : (t.pool.idle ++ φ.held?.toList).Nodup

variable {stand} {φ : Phase κ} {t t' : Premises α κ} {next : Next κ}

/-- A move that leaves the server alone: a connection goes to the pool or comes from it. -/
theorem Moves.still (hfit : Fit stand φ t) (hserver : t'.server = t.server)
    (hperm : (t'.pool.idle ++ next.held?.toList).Perm (t.pool.idle ++ φ.held?.toList))
    (hidle : ∀ c ∈ t'.pool.idle, stand.of c t.server = .usable)
    (hreusable : ∀ c, next = .goesOn (.returning c true) → stand.of c t.server = .usable)
    (hlost : ∀ c, φ.held? = some c → stand.of c t.server = .lost → next.held? = some c) :
    Moves stand φ t next t' where
  idle c hc := hserver ▸ hidle c hc
  held c hc := by
    rw [hserver]
    have hmem : c ∈ t.pool.idle ++ φ.held?.toList :=
      hperm.subset (List.mem_append_right _ (Option.mem_toList.mpr hc))
    rcases List.mem_append.mp hmem with hmem | hmem
    · exact Or.inl (hfit.idle c hmem)
    · exact hfit.held c (Option.mem_toList.mp hmem)
  reusable c hc := hserver ▸ hreusable c hc
  apart := hperm.nodup_iff.mpr hfit.apart
  source c hc := Or.inl (hperm.subset hc)
  others c _ _ := by rw [hserver]
  lost c hc h := Or.inl ⟨hlost c hc h, hserver ▸ h⟩

/-- Closing connections concerns no others, and not the pool. -/
theorem of_closeAll (stand : Standings b weather) (record : Journal.Record) (bad : List κ)
    (t : Premises α κ)
    (hopened : ∀ c ∈ bad, stand.of c t.server ≠ .unopened) :
    let closed := bad.foldl (fun t c =>
      (Premises.site b).backend.close c ((Premises.site b).log record t)) t
    closed.pool = t.pool ∧
      ∀ d, stand.of d t.server ≠ .unopened → d ∉ bad →
        stand.of d closed.server = stand.of d t.server := by
  induction bad generalizing t with
  | nil => exact ⟨rfl, fun _ _ _ => rfl⟩
  | cons c rest ih =>
    have hkept (d : κ) (hd : stand.of d t.server ≠ .unopened) :
        stand.of d (b.close c t.server) ≠ .unopened := by
      by_cases hdc : d = c
      · rw [hdc, stand.close (hdc ▸ hd)]
        exact nofun
      · rw [stand.close_others t.server c d hdc hd]
        exact hd
    obtain ⟨hpool, hothers⟩ := ih
      ((Premises.site b).backend.close c ((Premises.site b).log record t))
      fun d hd => hkept d (hopened d (List.mem_cons_of_mem c hd))
    refine ⟨hpool, fun d hd hnot => ?_⟩
    have hdc : d ≠ c := fun h => hnot (h ▸ List.mem_cons_self)
    exact (hothers d (hkept d hd) fun hmem => hnot (List.mem_cons_of_mem c hmem)).trans
      (stand.close_others t.server c d hdc hd)

/-- A look into the pool lends a usable connection, or none. -/
theorem moves_lookUp (hfit : Fit stand φ t) (hφ : φ.held? = none) :
    Moves stand φ t ((Premises.site b).lookUp t).1 ((Premises.site b).lookUp t).2 := by
  rcases hout : t.pool.checkOut ((Premises.site b).backend.isHealthy · t) with
    ⟨outcome, bad, pool⟩
  have hlook := Site.lookUp_eq (p := Premises.site b) (t := t) hout
  have hchecked := checkOut_checkedOut ((Premises.site b).backend.isHealthy · t) t.pool
  rw [hout] at hchecked
  rw [hlook]
  have hidle : ∀ c ∈ t.pool.idle, stand.of c t.server ≠ .unopened := by
    intro c hc
    rw [hfit.idle c hc]
    exact nofun
  have hapart : t.pool.idle.Nodup := (List.nodup_append.mp hfit.apart).1
  have hbad : ∀ c ∈ bad, c ∈ t.pool.idle := by
    cases hchecked with
    | reuse hsplit _ _ => exact fun c hc => hsplit ▸ List.mem_append_left _ hc
    | reserved _ _ => exact fun c hc => hc
    | exhausted _ _ => exact fun c hc => hc
  obtain ⟨hpool, hothers⟩ := of_closeAll stand pool.discardRecord bad { t with pool } fun c hc =>
    hidle c (hbad c hc)
  show Moves stand φ t (.goesOn outcome.phase) (bad.foldl _ { t with pool })
  generalize bad.foldl _ { t with pool } = t' at hpool hothers ⊢
  have hnone : ∀ c, φ.held? ≠ some c := fun c hc => by rw [hφ] at hc; cases hc
  -- Those in the pool before are concerned if they were found unhealthy, and no others.
  have hsame (c : κ) (hc : stand.of c t.server ≠ .unopened)
      (hnot : c ∉ t.pool.idle ++ φ.held?.toList) : stand.of c t'.server = stand.of c t.server :=
    hothers c hc fun hmem => hnot (List.mem_append_left _ (hbad c hmem))
  cases hchecked with
  | @reuse _ rest c hsplit _ _ =>
    have hrest : t'.pool.idle = rest := by rw [hpool]
    rw [hsplit] at hapart
    obtain ⟨-, htail, hdisjoint⟩ := List.nodup_append.mp hapart
    have husable (d : κ) (hd : d ∈ c :: rest) : stand.of d t'.server = .usable := by
      have hmem : d ∈ t.pool.idle := hsplit ▸ List.mem_append_right _ hd
      rw [hothers d (hidle d hmem) fun hbad => hdisjoint d hbad d hd rfl]
      exact hfit.idle d hmem
    refine ⟨?_, ?_, nofun, ?_, ?_, hsame, fun d hd => absurd hd (hnone d)⟩
    · rw [hrest]
      exact fun d hd => husable d (List.mem_cons_of_mem c hd)
    · intro d hd
      cases hd
      exact Or.inl (husable c List.mem_cons_self)
    · rw [hrest]
      exact (List.perm_append_singleton c rest).nodup_iff.mpr htail
    · intro d hd
      rw [hrest] at hd
      refine Or.inl (List.mem_append_left _ (hsplit ▸ List.mem_append_right _ ?_))
      exact (List.perm_append_singleton c rest).subset hd
  | reserved _ _ =>
    have hempty : t'.pool.idle = [] := by rw [hpool]
    refine ⟨?_, nofun, nofun, ?_, ?_, hsame, fun d hd => absurd hd (hnone d)⟩
    · rw [hempty]; exact nofun
    · rw [hempty]; exact List.nodup_nil
    · rw [hempty]; exact nofun
  | exhausted _ _ =>
    have hempty : t'.pool.idle = [] := by rw [hpool]
    refine ⟨?_, nofun, nofun, ?_, ?_, hsame, fun d hd => absurd hd (hnone d)⟩
    · rw [hempty]; exact nofun
    · rw [hempty]; exact List.nodup_nil
    · rw [hempty]; exact nofun

/-- A connection that is opened is new to the pool. -/
theorem moves_opening (hfit : Fit stand .opening t) (late : Bool) :
    Moves stand .opening t ((Premises.site b).advance late .opening t).1
      ((Premises.site b).advance late .opening t).2 := by
  have hopened : ∀ c ∈ t.pool.idle, stand.of c t.server ≠ .unopened := by
    intro c hc
    rw [hfit.idle c hc]
    exact nofun
  have hapart : t.pool.idle.Nodup := (List.nodup_append.mp hfit.apart).1
  have hwithin : (Premises.site b).backend.connect.run t =
      ((b.connect.run t.server).1, { t with server := (b.connect.run t.server).2 }) := rfl
  rw [Site.opening_eq, hwithin]
  rcases hr : b.connect.run t.server with ⟨f | c, server⟩
  · have hkept := stand.connect_failed hr
    refine ⟨fun c hc => ?_, nofun, nofun, ?_, ?_, fun c hc _ => hkept c hc, nofun⟩
    · exact (hkept c (hopened c hc)).trans (hfit.idle c hc)
    · exact (List.append_nil _).symm ▸ hapart
    · exact fun c hc => Or.inl hc
  · obtain ⟨hnew, husable, hkept⟩ := stand.connect hr
    have hne (d : κ) (hd : stand.of d t.server ≠ .unopened) : d ≠ c := fun h => hd (h ▸ hnew)
    refine ⟨fun d hd => ?_, ?_, nofun, ?_, ?_, fun d hd _ => hkept d (hne d hd) hd, nofun⟩
    · exact (hkept d (hne d (hopened d hd)) (hopened d hd)).trans (hfit.idle d hd)
    · intro d hd
      cases hd
      exact Or.inl husable
    · refine (List.perm_append_singleton c t.pool.idle).nodup_iff.mpr ?_
      exact List.nodup_cons.mpr ⟨fun hc => hopened c hc hnew, hapart⟩
    · intro d hd
      rcases List.mem_append.mp hd with hd | hd
      · exact Or.inl (List.mem_append_left _ hd)
      · exact Or.inr (List.mem_singleton.mp hd ▸ hnew)

/-- What concerns the connection of a customer alone, the pool does not notice. -/
theorem moves_server {c : κ} {server : α} (hfit : Fit stand φ t) (hφ : φ.held? = some c)
    (hothers : ∀ d, d ≠ c → stand.of d t.server ≠ .unopened →
      stand.of d server = stand.of d t.server)
    (hheld : next.held? = some c →
      stand.of c server = .usable ∨ stand.of c server = .lost)
    (hnext : next.held? = some c ∨ next.held? = none)
    (hreusable : ∀ d, next ≠ .goesOn (.returning d true))
    (hlost : stand.of c t.server = .lost →
      next.held? = some c ∧ stand.of c server = .lost ∨ stand.of c server = .destroyed) :
    Moves stand φ t next { t with server } := by
  obtain ⟨hidle, -, hdisjoint⟩ := List.nodup_append.mp hfit.apart
  have hmem : c ∈ φ.held?.toList := Option.mem_toList.mpr hφ
  have hsource : ∀ d ∈ next.held?.toList, d ∈ φ.held?.toList := by
    intro d hd
    rcases hnext with hnext | hnext <;> rw [hnext] at hd
    · rw [hφ]
      exact hd
    · cases hd
  refine ⟨fun d hd => ?_, fun d hd => ?_, fun d hd => absurd hd (hreusable d), ?_, ?_,
    fun d hd hnot => ?_, fun d hd hl => ?_⟩
  · have husable := hfit.idle d hd
    exact (hothers d (hdisjoint d hd c hmem) (by rw [husable]; exact nofun)).trans husable
  · rcases hnext with hnext | hnext
    · cases hnext.symm.trans hd
      exact hheld hnext
    · rw [hnext] at hd
      cases hd
  · refine List.nodup_append.mpr ⟨hidle, ?_, fun d hd d' hd' => ?_⟩
    · cases next.held? <;> simp
    · exact hdisjoint d hd d' (hsource d' hd')
  · intro d hd
    rcases List.mem_append.mp hd with hd | hd
    · exact Or.inl (List.mem_append_left _ hd)
    · exact Or.inl (List.mem_append_right _ (hsource d hd))
  · refine hothers d (fun h => hnot (List.mem_append_right _ (h ▸ hmem))) hd
  · cases hφ.symm.trans hd
    exact hlost hl

/-- **A step of a customer is a move.** -/
theorem moves_advance (hfit : Fit stand φ t) (late : Bool) :
    Moves stand φ t ((Premises.site b).advance late φ t).1
      ((Premises.site b).advance late φ t).2 := by
  cases φ with
  | look => exact moves_lookUp hfit rfl
  | wait =>
    unfold Site.advance
    dsimp only
    split
    · exact moves_lookUp hfit rfl
    · split
      · exact .still hfit rfl (.refl _) hfit.idle nofun nofun
      · exact .still hfit rfl (.refl _) hfit.idle nofun nofun
  | opening => exact moves_opening hfit late
  | failed f => exact .still hfit rfl (.refl _) hfit.idle nofun nofun
  | holding c =>
    refine .still hfit rfl (.refl _) hfit.idle (fun d hd => ?_) fun d hd _ => hd
    obtain ⟨rfl, hreusable⟩ := Phase.returning.inj (Next.goesOn.inj hd)
    have hhealthy : b.isHealthy c t.server = true := (Bool.and_eq_true_iff.mp hreusable).2
    refine (hfit.held c rfl).resolve_right fun hlost => ?_
    rw [stand.unhealthy hlost] at hhealthy
    cases hhealthy
  | returning c reusable =>
    cases reusable with
    | true =>
      have husable := hfit.reusable c rfl
      refine .still hfit rfl ?_ ?_ nofun fun d hd hlost => ?_
      · exact (List.append_nil _).symm ▸ (List.perm_append_singleton c t.pool.idle).symm
      · intro d hd
        rcases List.mem_cons.mp hd with rfl | hd
        · exact husable
        · exact hfit.idle d hd
      · cases hd
        rw [husable] at hlost
        cases hlost
    | false => exact .still hfit rfl (.refl _) hfit.idle nofun fun d hd _ => hd
  | closing c =>
    have hopened : stand.of c t.server ≠ .unopened := by
      rcases hfit.held c rfl with h | h <;> rw [h] <;> exact nofun
    exact moves_server hfit rfl (stand.close_others t.server c) nofun (Or.inr rfl) nofun
      fun _ => Or.inr (stand.close hopened)

/-- A request is a move, and so is poisoning. -/
theorem moves_submit {c : κ} (hfit : Fit stand (.holding c) t) (q : Request) :
    Moves stand (.holding c) t (.goesOn (.holding c))
      { t with server := ((b.submit c q).run t.server).2 } := by
  refine moves_server hfit rfl (stand.submit_others t.server c q) (fun _ => ?_) (Or.inl rfl)
    nofun fun hlost => Or.inl ⟨rfl, ?_⟩
  · rcases hfit.held c rfl with husable | hlost
    · exact (stand.submit_usable q husable).imp And.left And.left
    · obtain ⟨f, hf, -⟩ := stand.submit_lost q hlost
      rw [hf]
      exact Or.inr hlost
  · obtain ⟨f, hf, -⟩ := stand.submit_lost q hlost
    rw [hf]
    exact hlost

theorem moves_poison {c : κ} (hfit : Fit stand (.holding c) t) :
    Moves stand (.holding c) t (.goesOn (.holding c))
      { t with server := b.poison c t.server } := by
  have hopened : stand.of c t.server ≠ .unopened := by
    rcases hfit.held c rfl with h | h <;> rw [h] <;> exact nofun
  have hsame := stand.poison t.server c c hopened
  refine moves_server hfit rfl (fun d _ => stand.poison t.server c d) (fun _ => ?_) (Or.inl rfl)
    nofun fun hlost => Or.inl ⟨rfl, hsame.trans hlost⟩
  rw [hsame]
  exact hfit.held c rfl

/-! ## What holds at every moment -/

variable {w w' : Scene α κ} {i : Nat} {c : κ}

/-- The customers after a move of one of them. -/
structure Follows (w : Scene α κ) (i : Nat) (next : Next κ) (w' : Scene α κ) : Prop where
  get : ∀ j, w'.customers.get? j = if j = i then next.onward? else w.customers.get? j
  items : (w'.customers.values.filterMap Phase.held?).Perm
    (next.held?.toList ++ (w.customers.erase i).values.filterMap Phase.held?)

theorem follows_settle (w : Scene α κ) (i : Nat) (r : Next κ × Premises α κ) :
    Follows w i r.1 (w.settle i r) ∧ (w.settle i r).premises = r.2 := by
  obtain ⟨e | φ, t⟩ := r
  · exact ⟨⟨fun j => Table.get?_erase .., .refl _⟩, rfl⟩
  · exact ⟨⟨fun j => Table.get?_insert .., Table.items_insert_perm w.customers i φ⟩, rfl⟩

theorem follows_serve (hφ : w.customers.get? i = some φ) (f : α → α) :
    Follows w i (.goesOn φ) (w.serve f) where
  get j := by
    by_cases hj : j = i
    · rw [if_pos hj, hj]
      exact hφ
    · rw [if_neg hj]
      rfl
  items := Table.items_perm_of_get? hφ

variable (stand)

/-- What every step preserves. -/
structure Sound (w : Scene α κ) : Prop where
  idle : ∀ c ∈ w.premises.pool.idle, stand.of c w.premises.server = .usable
  held : ∀ i φ c, w.customers.get? i = some φ → φ.held? = some c →
    stand.of c w.premises.server = .usable ∨ stand.of c w.premises.server = .lost
  reusable : ∀ i c, w.customers.get? i = some (.returning c true) →
    stand.of c w.premises.server = .usable
  /-- No connection is in two places. -/
  apart : (w.premises.pool.idle ++ w.customers.values.filterMap Phase.held?).Nodup

/-- What a step can do: a customer moves, or what concerns connections stays as it is. -/
inductive Stepped (w w' : Scene α κ) : Prop
  | moved {i : Nat} {φ : Phase κ} {next : Next κ} (hφ : w.customers.get? i = some φ)
      (hmoves : Moves stand φ w.premises next w'.premises) (hfollows : Follows w i next w')
  | calm (hidle : w'.premises.pool.idle = w.premises.pool.idle)
      (hstand : ∀ d, stand.of d w.premises.server ≠ .unopened →
        stand.of d w'.premises.server = stand.of d w.premises.server)
      (hcustomers : ∀ j φ c, φ.held? = some c →
        (w'.customers.get? j = some φ ↔ w.customers.get? j = some φ))
      (hitems : (w'.customers.values.filterMap Phase.held?).Perm
        (w.customers.values.filterMap Phase.held?))

variable {stand}

theorem Sound.new (server : α) (name : Bytes) (capacity : Nat) (timeout : Int64) :
    Sound stand (.new server name capacity timeout) where
  idle := nofun
  held i φ c h := by cases h
  reusable i c h := by cases h
  apart := List.nodup_nil

theorem Sound.fit (hw : Sound stand w) (hφ : w.customers.get? i = some φ) :
    Fit stand φ w.premises where
  idle := hw.idle
  held c := hw.held i φ c hφ
  reusable c h := hw.reusable i c (h ▸ hφ)
  apart := by
    have hperm := (Table.items_perm_of_get? (f := Phase.held?) hφ).append_left w.premises.pool.idle
    have hall := hperm.nodup_iff.mp hw.apart
    rw [← List.append_assoc] at hall
    exact (List.nodup_append.mp hall).1

theorem stepped (weather : ω → α → α) (stand : Standings b weather) (hw : Sound stand w)
    (e : Event ω) : Stepped stand w (w.step b weather e) := by
  -- A customer uses the connection it holds; one that holds none does nothing.
  have huse (i : Nat) (f : κ → α → α) (hmoves : ∀ c, w.customers.get? i = some (.holding c) →
      Moves stand (.holding c) w.premises (.goesOn (.holding c))
        { w.premises with server := f c w.premises.server }) :
      Stepped stand w (w.use i f) := by
    unfold Scene.use
    split
    · next c hφ => exact .moved hφ (hmoves c hφ) (follows_serve hφ (f c))
    · exact .calm rfl (fun _ _ => rfl) (fun _ _ _ _ => Iff.rfl) (.refl _)
  cases e with
  | arrive i =>
    unfold Scene.step
    dsimp only
    split
    · exact .calm rfl (fun _ _ => rfl) (fun _ _ _ _ => Iff.rfl) (.refl _)
    · next habsent =>
      have hnone : w.customers.get? i = none :=
        (Table.contains_eq_false_iff _ _).mp (Bool.not_eq_true _ ▸ habsent)
      refine .calm rfl (fun _ _ => rfl) (fun j φ c hc => ?_) ?_
      · rw [Table.get?_insert]
        split
        · next hj =>
          rw [hj, hnone]
          refine iff_of_false (fun h => ?_) fun h => ?_
          · cases h
            cases hc
          · cases h
        · exact Iff.rfl
      · have hitems := Table.items_insert_perm (f := Phase.held?) w.customers i .look
        rw [Table.erase_of_absent hnone] at hitems
        exact hitems
  | advance i late =>
    unfold Scene.step
    dsimp only
    split
    · exact .calm rfl (fun _ _ => rfl) (fun _ _ _ _ => Iff.rfl) (.refl _)
    · next φ hφ =>
      obtain ⟨hfollows, hpremises⟩ :=
        follows_settle w i ((Premises.site b).advance late φ w.premises)
      exact .moved hφ (hpremises ▸ moves_advance (hw.fit hφ) late) hfollows
  | submit i q => exact huse i _ fun c hφ => moves_submit (hw.fit hφ) q
  | poison i => exact huse i _ fun c hφ => moves_poison (hw.fit hφ)
  | weather x =>
    exact .calm rfl (stand.weather x w.premises.server) (fun _ _ _ _ => Iff.rfl) (.refl _)

/-- What a customer who does not move has is not touched. -/
theorem Sound.others (hw : Sound stand w) {j : Nat} {ψ : Phase κ}
    (hφ : w.customers.get? i = some φ) (hψ : w.customers.get? j = some ψ) (hne : j ≠ i)
    (hc : ψ.held? = some c) : c ∉ w.premises.pool.idle ++ φ.held?.toList := by
  have hmem : c ∈ w.customers.values.filterMap Phase.held? :=
    (Table.mem_items_iff _ c).mpr ⟨j, ψ, hψ, hc⟩
  obtain ⟨-, hitems, hdisjoint⟩ := List.nodup_append.mp hw.apart
  intro h
  rcases List.mem_append.mp h with h | h
  · exact hdisjoint c h c hmem rfl
  · exact hne (Table.key_unique hitems hψ hc hφ (Option.mem_toList.mp h))

theorem Sound.opened (hw : Sound stand w) (hφ : w.customers.get? i = some φ)
    (hc : φ.held? = some c) : stand.of c w.premises.server ≠ .unopened := by
  rcases hw.held i φ c hφ hc with h | h <;> rw [h] <;> exact nofun

theorem Sound.step (hw : Sound stand w) (h : Stepped stand w w') : Sound stand w' := by
  cases h with
  | calm hidle hstand hcustomers hitems =>
    have hkept {d : κ} {standing : Standing} (h : stand.of d w.premises.server = standing)
        (hne : standing ≠ .unopened) : stand.of d w'.premises.server = standing :=
      (hstand d (h ▸ hne)).trans h
    refine ⟨fun d hd => ?_, fun j ψ d hj hd => ?_, fun j d hj => ?_, ?_⟩
    · exact hkept (hw.idle d (hidle ▸ hd)) nofun
    · rcases hw.held j ψ d ((hcustomers j ψ d hd).mp hj) hd with h | h
      · exact Or.inl (hkept h nofun)
      · exact Or.inr (hkept h nofun)
    · exact hkept (hw.reusable j d ((hcustomers j _ d rfl).mp hj)) nofun
    · rw [hidle]
      exact (hitems.append_left _).nodup_iff.mpr hw.apart
  | @moved i φ next hφ hmoves hfollows =>
    -- What the other customers have stands as it did.
    have hother {j : Nat} {ψ : Phase κ} {d : κ} (hj : w.customers.get? j = some ψ) (hne : j ≠ i)
        (hd : ψ.held? = some d) :
        stand.of d w'.premises.server = stand.of d w.premises.server :=
      hmoves.others d (hw.opened hj hd) (hw.others hφ hj hne hd)
    refine ⟨hmoves.idle, fun j ψ d hj hd => ?_, fun j d hj => ?_, ?_⟩
    · rw [hfollows.get] at hj
      split at hj
      · exact hmoves.held d (by rw [Next.held?, hj]; exact hd)
      · next hne =>
        rw [hother hj hne hd]
        exact hw.held j ψ d hj hd
    · rw [hfollows.get] at hj
      split at hj
      · refine hmoves.reusable d ?_
        cases next with
        | ended e => cases hj
        | goesOn ψ => cases hj; rfl
      · next hne =>
        rw [hother hj hne rfl]
        exact hw.reusable j d hj
    · have hbefore := ((Table.items_perm_of_get? (f := Phase.held?) hφ).append_left
        w.premises.pool.idle).nodup_iff.mp hw.apart
      rw [← List.append_assoc] at hbefore
      obtain ⟨-, hrest, hdisjoint⟩ := List.nodup_append.mp hbefore
      rw [(hfollows.items.append_left _).nodup_iff, ← List.append_assoc]
      refine List.nodup_append.mpr ⟨hmoves.apart, hrest, ?_⟩
      rintro d hd _ hd' rfl
      -- It was in the pool or with the customer before, or it is new; so nobody else has it.
      rcases hmoves.source d hd with hsource | hnew
      · exact hdisjoint d hsource d hd' rfl
      · obtain ⟨j, ψ, hj, hψ⟩ := (Table.mem_items_iff _ d).mp hd'
        rw [Table.get?_erase] at hj
        split at hj
        · cases hj
        · exact hw.opened hj hψ hnew

theorem Sound.run (weather : ω → α → α) (stand : Standings b weather) (hw : Sound stand w)
    (events : List (Event ω)) : Sound stand (w.run b weather events) := by
  induction events generalizing w with
  | nil => exact hw
  | cons e events ih => exact ih (hw.step (stepped weather stand hw e))

/-! ## Lost for good -/

/-- A connection that a customer lost, which has it still; or one that is destroyed. -/
def Sealed (stand : Standings b weather) (i : Nat) (c : κ) (w : Scene α κ) : Prop :=
  (stand.of c w.premises.server = .lost ∧
      ∃ φ, w.customers.get? i = some φ ∧ φ.held? = some c) ∨
    stand.of c w.premises.server = .destroyed

theorem Sealed.step (hw : Sound stand w) (hc : Sealed stand i c w) (h : Stepped stand w w') :
    Sealed stand i c w' := by
  have hopened : stand.of c w.premises.server ≠ .unopened := by
    rcases hc with ⟨h, -⟩ | h <;> rw [h] <;> exact nofun
  cases h with
  | calm hidle hstand hcustomers hitems =>
    rcases hc with ⟨hlost, φ, hφ, hheld⟩ | hdestroyed
    · exact Or.inl ⟨(hstand c hopened).trans hlost, φ, (hcustomers i φ c hheld).mpr hφ, hheld⟩
    · exact Or.inr ((hstand c hopened).trans hdestroyed)
  | @moved j ψ next hψ hmoves hfollows =>
    rcases hc with ⟨hlost, φ, hφ, hheld⟩ | hdestroyed
    · by_cases hij : i = j
      · subst hij
        cases hψ.symm.trans hφ
        refine (hmoves.lost c hheld hlost).imp_left fun ⟨hnext, hstill⟩ => ⟨hstill, ?_⟩
        obtain ⟨φ', hφ', hheld'⟩ := Option.bind_eq_some_iff.mp hnext
        exact ⟨φ', by rw [hfollows.get, if_pos rfl, hφ'], hheld'⟩
      · have hsame := hmoves.others c hopened (hw.others hψ hφ hij hheld)
        exact Or.inl ⟨hsame.trans hlost, φ, by rw [hfollows.get, if_neg hij, hφ], hheld⟩
    · -- Who has a connection has one that is not destroyed, and so has the pool.
      have hnot : c ∉ w.premises.pool.idle ++ ψ.held?.toList := by
        intro hmem
        rcases List.mem_append.mp hmem with hmem | hmem
        · have husable := hw.idle c hmem
          rw [hdestroyed] at husable
          cases husable
        · rcases hw.held j ψ c hψ (Option.mem_toList.mp hmem) with h | h <;>
            rw [hdestroyed] at h <;> cases h
      exact Or.inr ((hmoves.others c hopened hnot).trans hdestroyed)

theorem Sealed.run (hw : Sound stand w) (hc : Sealed stand i c w) (events : List (Event ω)) :
    Sealed stand i c (w.run b weather events) := by
  induction events generalizing w with
  | nil => exact hc
  | cons e events ih =>
    have hstep := stepped weather stand hw e
    exact ih (hw.step hstep) (hc.step hw hstep)

/-- **What is left of a connection that a customer lost.** -/
structure StaysLost (stand : Standings b weather) (i : Nat) (c : κ) (w : Scene α κ) : Prop where
  /-- The customer has it, and it is not healthy; or it is destroyed. -/
  gone : ((∃ φ, w.customers.get? i = some φ ∧ φ.held? = some c) ∧
      b.isHealthy c w.premises.server = false) ∨
    stand.of c w.premises.server = .destroyed
  /-- It sends nothing, and says that it is lost. -/
  refuses : w.customers.get? i = some (.holding c) → ∀ q, ∃ f,
    (b.submit c q).run w.premises.server = (.error f, w.premises.server) ∧
      (q.Matched → f.kind = .connection)
  /-- The customer who drops it has it destroyed. -/
  dropped : w.customers.get? i = some (.holding c) → ∀ late,
    stand.of c (w.run b weather (List.replicate 3 (.advance i late))).premises.server = .destroyed
  /-- It is never lent again. -/
  notIdle : c ∉ w.premises.pool.idle
  notLent : ∀ j φ, w.customers.get? j = some φ → φ.held? = some c → j = i

theorem get?_advance (b : Backend α κ) (weather : ω → α → α)
    (hφ : w.customers.get? i = some φ) (late : Bool) :
    (w.step b weather (.advance i late)).customers.get? i =
      ((Premises.site b).advance late φ w.premises).1.onward? := by
  have hstep : w.step b weather (.advance i late) =
      w.settle i ((Premises.site b).advance late φ w.premises) := by rw [Scene.step, hφ]
  rw [hstep, (follows_settle w i _).1.get, if_pos rfl]

theorem Sealed.lost (hw : Sound stand w) (hc : Sealed stand i c w) {j : Nat} {ψ : Phase κ}
    (hψ : w.customers.get? j = some ψ) (hheld : ψ.held? = some c) :
    stand.of c w.premises.server = .lost := by
  rcases hc with ⟨hlost, -⟩ | hdestroyed
  · exact hlost
  · rcases hw.held j ψ c hψ hheld with h | h <;> rw [hdestroyed] at h <;> cases h

/-- The steps of a customer who gives a lost connection back. -/
theorem Sealed.dropped (hw : Sound stand w) (hc : Sealed stand i c w)
    (hφ : w.customers.get? i = some (.holding c)) (late : Bool) :
    stand.of c (w.run b weather (List.replicate 3 (.advance i late))).premises.server =
      .destroyed := by
  have hunhealthy : b.isHealthy c w.premises.server = false :=
    stand.unhealthy (hc.lost hw hφ rfl)
  -- Unhealthy, it is returned for closing; it is closed, and the customer is gone.
  have hreturning : (w.step b weather (.advance i late)).customers.get? i =
      some (.returning c false) := by
    rw [get?_advance b weather hφ]
    refine congrArg (fun reusable => some (Phase.returning c reusable)) ?_
    show (!b.isPoisoned c w.premises.server && b.isHealthy c w.premises.server) = false
    rw [hunhealthy, Bool.and_false]
  have hclosing := get?_advance b weather hreturning late
  have hgone := get?_advance b weather hclosing late
  refine (hc.run hw (List.replicate 3 (.advance i late))).resolve_left ?_
  rintro ⟨-, ψ, hψ, -⟩
  cases hgone.symm.trans hψ

theorem staysLost_of_sealed (hw : Sound stand w) (hc : Sealed stand i c w) :
    StaysLost stand i c w where
  gone := hc.imp_left fun ⟨hlost, hheld⟩ => ⟨hheld, stand.unhealthy hlost⟩
  refuses hφ q := stand.submit_lost q (hc.lost hw hφ rfl)
  dropped hφ late := hc.dropped hw hφ late
  notIdle hmem := by
    have husable := hw.idle c hmem
    rcases hc with ⟨h, -⟩ | h <;> rw [h] at husable <;> cases husable
  notLent j ψ hψ hheld := by
    have hlost := hc.lost hw hψ hheld
    rcases hc with ⟨-, φ, hφ, hc⟩ | hdestroyed
    · exact Table.key_unique (List.nodup_append.mp hw.apart).2.1 hψ hheld hφ hc
    · rw [hlost] at hdestroyed
      cases hdestroyed

/-- A request that fails for want of the server loses the connection. -/
theorem sealed_submit (hw : Sound stand w) (hφ : w.customers.get? i = some (.holding c))
    {q : Request} {f : Fault} (hf : ((b.submit c q).run w.premises.server).1 = .error f)
    (hkind : f.kind = .connection) : Sealed stand i c (w.step b weather (.submit i q)) := by
  have hstep : w.step b weather (.submit i q) =
      w.serve fun s => ((b.submit c q).run s).2 := by rw [Scene.step, Scene.use, hφ]
  refine Or.inl ⟨?_, .holding c, by rw [hstep]; exact hφ, rfl⟩
  rw [hstep]
  show stand.of c ((b.submit c q).run w.premises.server).2 = .lost
  rcases hw.held i _ c hφ rfl with husable | hlost
  · rcases stand.submit_usable q husable with ⟨-, hother⟩ | ⟨hlost, -⟩
    · exact absurd hkind (hother f hf)
    · exact hlost
  · obtain ⟨f', hf', -⟩ := stand.submit_lost q hlost
    rw [hf']
    exact hlost

/-- A request that fails for want of the server loses its connection for good, whatever happened
before and whatever comes after. -/
def LostForGood (stand : Standings b weather) : Prop :=
  ∀ (server : α) (name : Bytes) (capacity : Nat) (timeout : Int64) (before after : List (Event ω))
    (i : Nat) (c : κ) (q : Request) (f : Fault),
    let new := Scene.new server name capacity timeout
    let w := new.run b weather before
    w.customers.get? i = some (.holding c) →
      ((b.submit c q).run w.premises.server).1 = .error f → f.kind = .connection →
        StaysLost stand i c (new.run b weather (before ++ .submit i q :: after))

/-- **A lost connection stays lost.** -/
theorem lostForGood (stand : Standings b weather) : LostForGood stand := by
  intro server name capacity timeout before after i c q f new w hφ hf hkind
  have hw : Sound stand w := (Sound.new server name capacity timeout).run weather stand before
  have hsealed : Sealed stand i c (w.step b weather (.submit i q)) :=
    sealed_submit hw hφ hf hkind
  have hafter := hw.step (stepped weather stand hw (.submit i q))
  have hrun : new.run b weather (before ++ .submit i q :: after) =
      (w.step b weather (.submit i q)).run b weather after := List.foldl_append
  rw [hrun]
  exact staysLost_of_sealed (hafter.run weather stand after) (hsealed.run hafter after)

end
end Pool
end Coordinator
