import Vmctx.Ownership.Table
import Vmctx.PageTransfer.Exclusion
/-!
# Serving a fault

`fault_from_home_mode` serves a page fault of a context under two reservations: the entry of the
page in the ownership channel, which lets the other faults on the page wait for this one, and the
page's claim in the transfer table, which excludes every other transfer. Both are released before
the source is asked to interpret the exception, and an answer that allows the access starts again
under new ones. A request of the page server holds the page's claim from before it looks at the page
until its reply is sent.

Any number of workers serve faults and requests on any pages. A step is a section of one of the two
locks, a call that moves the page, or a test of a local variable; what the page service, the network
and the source answer are arguments of the steps. The book of a worker lists what its call did,
latest first, and `done` keeps the results and the books of the calls that have returned; no step
reads them.
-/

namespace Vmctx.Ownership

open PageTransfer

/-- The identity of an address space, `as_id` of a memory target. -/
abbrev Space := { as : UInt64 // as ≠ 0 }

inductive Pc
  | idle
  | starting
  | waiting
  | trying
  | yielding
  | serving
  | flushing
  | looking
  | finishing
  | releasing
  | deciding
  | asking
  | reporting
  | requesting
  | answering
  | closing
  | leaving
  deriving DecidableEq

inductive Note
  | owned
  | disowned
  | claimed (episode : UInt64)
  | served (allowed : Bool)
  | finished (episode : UInt64) (st : PgSt)
  | asked
  deriving DecidableEq

/-- A thread that serves a fault. -/
structure Worker where
  pc : Pc
  as : Space
  addr : UInt64
  err : UInt64
  allowed : Bool
  owf : Bool
  generation : UInt32
  claim : Option PgClaim
  result : Int
  present : Bool
  depth : Nat
  final : PgSt
  book : List Note

def Worker.idle : Worker where
  pc := .idle
  as := ⟨1, by decide⟩
  addr := 0
  err := 0
  allowed := false
  owf := false
  generation := 0
  claim := none
  result := 0
  present := false
  depth := 0
  final := .invalid
  book := []

def Worker.key (w : Worker) : PgKey := PgKey.of w.as w.addr

def Worker.goto (w : Worker) (pc : Pc) : Worker := { w with pc := pc }

def Worker.note (w : Worker) (note : Note) : Worker := { w with book := note :: w.book }

/-- The workers and the tables they share. -/
structure Service where
  channel : Bool
  own : OwnTable
  claims : World
  workers : List Worker
  dead : Bool
  done : List (Int × List Note)

namespace Service

def start (channel : Bool) (workers : Nat) : Service where
  channel := channel
  own := .start
  claims := .start
  workers := List.replicate workers .idle
  dead := false
  done := []

def set (s : Service) (i : Nat) (w : Worker) : Service := { s with workers := s.workers.set i w }

def die (s : Service) : Service := { s with dead := true }

def return_ (s : Service) (i : Nat) (w : Worker) (result : Int) : Service :=
  { s with done := (result, w.book) :: s.done }.set i .idle

/-- The result by which `fault_from_home_inner` leaves the exception to the source,
`FAULT_NEEDS_OWNER`. -/
def faultNeedsOwner : Int := 2

def enter (s : Service) (i : Nat) (vec : UInt64) (as : Space) (addr err : UInt64) : Service :=
  let w : Worker := { Worker.idle with as := as, addr := addr, err := err }
  if vec ≠ 14 then s.set i ((w.note .asked).goto .reporting) else s.set i (w.goto .starting)

/-- `ownf_claim`. -/
def ownfClaim (s : Service) (i : Nat) (w : Worker) : Service :=
  let w : Worker := { w with owf := false, claim := none }
  if s.channel = false then s.set i (w.goto .trying)
  else
    match ownBegin s.own w.as w.addr .toRemote with
    | (own, .claimed) =>
      { s with own := own }.set i (({ w with owf := true }.note .owned).goto .trying)
    | (own, .busy gen) =>
      { s with own := own }.set i ({ w with generation := gen }.goto .waiting)
    | (own, .full) => { s with own := own }.set i (w.goto .trying)

/-- `ownf_wait`. A landing ends the call; a wait that expires runs without the entry. -/
def ownfWait (s : Service) (i : Nat) (w : Worker) : Service :=
  if ownLanded s.own w.as w.addr w.generation then s.return_ i w 1
  else s.set i (w.goto .trying)

/-- `ownf_release`. -/
def ownfRelease (s : Service) (w : Worker) (present : Bool) : Service :=
  if s.channel = false then s
  else
    { s with own :=
      if present then ownLand s.own w.as w.addr .remote else ownAbort s.own w.as w.addr }

def tryClaim (s : Service) (i : Nat) (w : Worker) (mine : PgSt) (won lost : Pc) : Option Service :=
  match s.claims.call (.tryClaim w.as w.addr mine.code (some ⟨0, 0, 0, .invalid⟩)) with
  | .error _ => some s.die
  | .ok (claims, .claimed _ claim) =>
    some ({ s with claims := claims }.set i
      (({ w with claim := some claim }.note (.claimed claim.episode)).goto won))
  | .ok (claims, .failed _) => some ({ s with claims := claims }.set i (w.goto lost))
  | .ok (_, .finished _) => none

def yield_ (s : Service) (i : Nat) (w : Worker) : Service :=
  if w.owf then
    let w' : Worker := { w with owf := false }.note .disowned
    (s.ownfRelease w false).return_ i w' 1
  else s.return_ i w 1

/-- `fault_from_home_inner`, with its result and the depth of the coherence lock after it. -/
def serve (s : Service) (i : Nat) (w : Worker) (result : Int) (depth : Nat) : Service :=
  s.set i (({ w with result := result, depth := depth }.note (.served w.allowed)).goto .flushing)

def flush (s : Service) (i : Nat) (w : Worker) (confirmed : Bool) : Service :=
  if confirmed then s.set i (w.goto .looking) else s.die

def look (s : Service) (i : Nat) (w : Worker) (present : Bool) : Service :=
  s.set i ({ w with present := present }.goto .finishing)

def settled (w : Worker) : PgSt :=
  if w.present then (if w.err &&& 2 ≠ 0 then .owned else .shared) else .invalid

/-- `pg_finish_required`. A completion that fails ends the process. -/
def finish (s : Service) (i : Nat) (w : Worker) (claim : PgClaim) (st : PgSt) (pc : Pc) :
    Service :=
  match s.claims.call (.finish (some claim) st.code) with
  | .ok (claims, .finished _) =>
    { s with claims := claims }.set i
      (({ w with claim := none }.note (.finished claim.episode st)).goto pc)
  | .ok (claims, _) => { s with claims := claims }.die
  | .error _ => s.die

def release (s : Service) (i : Nat) (w : Worker) : Service :=
  if w.owf then
    let w' : Worker := { w with owf := false }.note .disowned
    (s.ownfRelease w w.present).set i (w'.goto .deciding)
  else s.set i (w.goto .deciding)

/-- Return unless the source has to interpret the exception. It is asked once, and with the
coherence lock free. -/
def decide_ (s : Service) (i : Nat) (w : Worker) : Service :=
  if w.result ≠ faultNeedsOwner then s.return_ i w w.result
  else if w.allowed then s.die
  else if w.depth ≠ 0 then s.die
  else s.set i ((w.note .asked).goto .asking)

def ask (s : Service) (i : Nat) (w : Worker) (result : Int) : Service :=
  if result ≠ 2 then s.return_ i w (if result = 1 then 1 else 0)
  else s.set i ({ w with allowed := true }.goto .starting)

def request (s : Service) (i : Nat) (as : Space) (addr : UInt64) : Service :=
  s.set i ({ Worker.idle with as := as, addr := addr }.goto .requesting)

inductive Left
  | invalid
  | shared
  | prior
  deriving DecidableEq

/-- `pg_serve_conn` chooses the state in which it leaves a requested page. -/
def answer (s : Service) (i : Nat) (w : Worker) (claim : PgClaim) (left : Left) : Service :=
  let final := match left with
    | .invalid => .invalid
    | .shared => .shared
    | .prior => claim.prior
  s.set i ({ w with final := final }.goto .closing)

inductive Act
  | enter (vec : UInt64) (as : Space) (addr err : UInt64)
  | ownfClaim
  | ownfWait
  | tryClaim
  | yield_
  | serve (result : Int) (depth : Nat)
  | flush (confirmed : Bool)
  | look (present : Bool)
  | finish
  | release
  | decide_
  | ask (result : Int)
  | report (result : Int)
  | request (as : Space) (addr : UInt64)
  | requestClaim (reads : Bool)
  | answer (left : Left)
  | close
  | leave

inductive Label
  | worker (i : Nat) (act : Act)
  | other (call : Call)

def actNext (s : Service) (i : Nat) (w : Worker) (act : Act) : Option Service :=
  match w.pc, act with
  | .idle, .enter vec as addr err => some (s.enter i vec as addr err)
  | .starting, .ownfClaim => some (s.ownfClaim i w)
  | .waiting, .ownfWait => some (s.ownfWait i w)
  | .trying, .tryClaim => s.tryClaim i w .requesting .serving .yielding
  | .yielding, .yield_ => some (s.yield_ i w)
  | .serving, .serve result depth => some (s.serve i w result depth)
  | .flushing, .flush confirmed => some (s.flush i w confirmed)
  | .looking, .look present => some (s.look i w present)
  | .finishing, .finish => w.claim.map fun claim => s.finish i w claim (settled w) .releasing
  | .releasing, .release => some (s.release i w)
  | .deciding, .decide_ => some (s.decide_ i w)
  | .asking, .ask result => some (s.ask i w result)
  | .reporting, .report result => some (s.return_ i w (if result = 1 then 1 else 0))
  | .idle, .request as addr => some (s.request i as addr)
  | .requesting, .requestClaim reads =>
    s.tryClaim i w (if reads then .downgrading else .uninstalling) .answering .leaving
  | .answering, .answer left => w.claim.map fun claim => s.answer i w claim left
  | .closing, .close => w.claim.map fun claim => s.finish i w claim w.final .leaving
  | .leaving, .leave => some (s.return_ i w 0)
  | _, _ => none

def allows (s : Service) : Call → Bool
  | .finish (some c) _ => s.workers.all fun w => match w.claim with
    | some held => !(PgKey.of c.as c.page == w.key && c.episode == held.episode)
    | none => true
  | _ => true

/-- A step of a worker in `fault_from_home_mode` or `pg_serve_conn`. -/
def next (s : Service) (label : Label) : Option Service :=
  if s.dead then none
  else
    match label with
    | .worker i act => s.workers[i]?.bind fun w => s.actNext i w act
    | .other call =>
      if s.allows call then (s.claims.next call).map fun claims => { s with claims := claims }
      else none

abbrev Step : Service → Label → Service → Prop := System.Computed next

end Service

end Vmctx.Ownership
