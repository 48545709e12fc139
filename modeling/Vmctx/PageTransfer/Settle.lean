import Vmctx.Identity
import Vmctx.PageTransfer.Exclusion
/-!
# Settling every loan before a snapshot

`page_recall_all` takes back every page of an address space that is lent to the source. For each it
claims the page's transfer, pulls the page, lands the bytes and acknowledges them, or finds that the
source has nothing and a complete copy is here, and only then clears the loan; the claim is released
on every way out. The call is a program counter over the real claim table and the table of loans.
What the network, the files and the layout answer are arguments of its steps, and between any two of
them other workers claim and finish transfers of their own and change loans as they like.

The history of the call lists what it did, latest first; no step reads it.
-/

namespace Vmctx.PageTransfer

/-- `struct loan`. -/
structure Loan where
  page : UInt64
  owner : UInt64
  shared : Bool
  deriving DecidableEq

def loanFind (loans : List Loan) (page : UInt64) : Option Loan :=
  loans.find? fun loan => loan.page == pageBase page

def pageHolder (loans : List Loan) (page : UInt64) : UInt64 :=
  match loanFind loans page with
  | some loan => loan.owner
  | none => 0

def pageShared (loans : List Loan) (page : UInt64) : Bool :=
  match loanFind loans page with
  | some loan => loan.owner != 0 && loan.shared
  | none => false

def pageLendNobody (loans : List Loan) (page : UInt64) : List Loan :=
  loans.map fun loan =>
    if loan.page = pageBase page then { loan with owner := 0, shared := false } else loan

def loanSnapshot (loans : List Loan) : List UInt64 :=
  (loans.filter fun loan => loan.owner != 0).map Loan.page

/-- What a pull tells its caller, `PULL_*`. -/
inductive Pull
  | bytes | absent | claim | nomap | failed | cowbreak | gone | notHolder
  deriving DecidableEq, Repr

/-- A page receipt, `struct source_page_receipt`, without the generations and sums it carries for
diagnosis. -/
structure Receipt where
  target : MmBinding
  base : UInt64
  episode : UInt64
  count : UInt32
  taken : UInt32
  ackQueued : Bool
  deriving DecidableEq

def Receipt.none_ : Receipt := ⟨.zero, 0, 0, 0, 0, false⟩

structure FetchReply where
  failed : Bool
  result : Int
  target : MmBinding
  base : UInt64
  episode : UInt64
  ngen : UInt32
  taken : UInt32

/-- The results of `CTXPAGE` below one that a fetch lets through: `ABSENT`, `CLAIMING`, `NOTHOLDER`,
`COWBREAK`, `GONE`, `-EFAULT` and `-EACCES`. -/
def fetchAnswers : List Int := [-61, -11, -116, -18, -19, -14, -13]

/-- `source_page_fetch` into an empty receipt. `none` means that the process ended. -/
def sourcePageFetch (reply : FetchReply) : Option (Int × Receipt) :=
  if reply.failed = true ∨ (reply.result ≤ 0 ∧ reply.result ∉ fetchAnswers) then none
  else if reply.result ≤ 0 then some (reply.result, .none_)
  else some (reply.result,
    ⟨reply.target, reply.base, reply.episode, reply.ngen, reply.taken, false⟩)

def ctxPagePull (reply : FetchReply) : Option (Pull × Receipt) :=
  (sourcePageFetch reply).map fun (result, receipt) =>
    (if result = 4096 then .bytes
      else if result = -11 then .claim
      else if result = -61 then .absent
      else if result = -116 then .notHolder
      else if result = -18 then .cowbreak
      else if result = -19 then .gone
      else if result = -14 ∨ result = -13 then .nomap
      else .failed, receipt)

structure Ack where
  target : MmBinding
  page : UInt64
  episode : UInt64
  deriving DecidableEq

def Ack.wellFormed (a : Ack) : Bool :=
  a.target.valid && a.episode != 0 && a.page &&& 4095 == 0

def Receipt.acknowledges (r : Receipt) (base : UInt64) : Bool :=
  r.target.valid && r.episode != 0 && !r.ackQueued && r.count == 1 && base &&& 4095 == 0 &&
    r.base ≤ base && (base - r.base) / 4096 < r.count.toUInt64 &&
    r.taken &&& (1 <<< ((base - r.base) / 4096).toUInt32) != 0

/-- Where the bytes of a page belong: with the context and its object, or in a slot of the shared
object. -/
inductive Backing
  | own
  | slot (offset : Nat)
  deriving DecidableEq, Repr

inductive Place
  | context
  | object
  | slot (offset : Nat)
  deriving DecidableEq, Repr

def Place.of : Place → Backing → Bool
  | .context, .own => true
  | .object, .own => true
  | .slot n, .slot m => n == m
  | _, _ => false

def Backing.place : Backing → Place
  | .own => .object
  | .slot n => .slot n

inductive Event
  | claimed (page episode : UInt64)
  | unlent (page : UInt64)
  | pulled (page : UInt64) (pull : Pull) (backing : Backing)
  | kept (page : UInt64) (backing : Backing)
  | landed (page episode : UInt64) (place : Place)
  | sent (page episode : UInt64)
  | confirmed (page episode : UInt64)
  | found (page : UInt64) (place : Place)
  | cleared (page : UInt64)
  | released (page : UInt64) (st : PgSt)
  deriving DecidableEq

/-- One page in hand: `transfer`, `receipt` and what was read about the page. -/
structure Turn where
  page : UInt64
  rest : List UInt64
  started : UInt64
  claim : PgClaim
  final : PgSt
  shared : Bool
  backing : Backing
  receipt : Receipt
  deriving DecidableEq

inductive Leave
  | moveOn
  | again
  | fail
  deriving DecidableEq

/-- Where the settlement is. -/
inductive Pc
  | begin_
  | choosing (rest : List UInt64)
  | trying (page : UInt64) (rest : List UInt64) (started : UInt64)
  | checking (t : Turn)
  | looking (t : Turn)
  | sampling (t : Turn)
  | pulling (t : Turn)
  | comparing (t : Turn) (pull : Pull)
  | landing (t : Turn)
  | queueing (t : Turn)
  | flushing (t : Turn)
  | reading (t : Turn)
  | retiring (t : Turn)
  | leaving (t : Turn) (how : Leave)
  | releasing (t : Turn) (how : Leave)
  | waiting (page : UInt64) (rest : List UInt64) (started : UInt64)
  | finishing (ok : Bool)
  | returned (ok : Bool)
  | dead
  deriving DecidableEq

def Turn.after (t : Turn) : Leave → Pc
  | .moveOn => .choosing t.rest
  | .again => .waiting t.page t.rest t.started
  | .fail => .finishing false

def Turn.pulled (t : Turn) : Pull → Pc
  | .claim => .releasing t .again
  | .bytes => .landing t
  | .absent => .reading t
  | .notHolder => .reading t
  | _ => .leaving t .fail

def Pc.turn? : Pc → Option Turn
  | checking t => some t
  | looking t => some t
  | sampling t => some t
  | pulling t => some t
  | comparing t _ => some t
  | landing t => some t
  | queueing t => some t
  | flushing t => some t
  | reading t => some t
  | retiring t => some t
  | leaving t _ => some t
  | releasing t _ => some t
  | _ => none

/-- The call, the claim table and the loans of its address space. -/
structure Settling where
  as : UInt64
  claims : World
  loans : List Loan
  pending : Option Ack
  pc : Pc
  rows : List UInt64
  log : List Event

namespace Settling

def start (as : UInt64) (claims : World) (loans : List Loan) (pending : Option Ack) : Settling :=
  ⟨as, claims, loans, pending, .begin_, [], []⟩

def goto (s : Settling) (pc : Pc) : Settling := { s with pc := pc }

def note (s : Settling) (event : Event) : Settling := { s with log := event :: s.log }

/-- `ack_flush`, then go on. The process ends unless the source confirms. -/
def ackFlush (s : Settling) (confirmed : Bool) (pc : Pc) : Settling :=
  match s.pending with
  | none => s.goto pc
  | some a =>
    if a.wellFormed = false then s.goto .dead
    else if confirmed then
      (({ s with pending := none }.note (.sent a.page a.episode)).note
        (.confirmed a.page a.episode)).goto pc
    else (s.note (.sent a.page a.episode)).goto .dead

/-- The steps of the call, with what they are answered, and of others. -/
inductive Label
  | snapshot
  | choose (now : UInt64)
  | claim
  | holder
  | shared
  | sample (mapped : Bool) (offset : Option Nat)
  | pull (reply : FetchReply)
  | compare (mapped : Bool) (offset : Option Nat)
  | land (copied objected : Int)
  | queue (confirmed : Bool)
  | flush (confirmed : Bool)
  | read (has : Bool) (got : Int)
  | retire
  | leave (confirmed : Bool)
  | release
  | wait (now : UInt64)
  | finish (confirmed : Bool)
  | other (call : Call)
  | lend (loans : List Loan)

def Label.own : Label → Bool
  | .other _ => false
  | .lend _ => false
  | _ => true

def sampled (mapped : Bool) (offset : Option Nat) : Option Backing :=
  match mapped, offset with
  | false, _ => some .own
  | true, some n => some (.slot n)
  | true, none => none

def unchanged (backing : Backing) (mapped : Bool) (offset : Option Nat) : Bool :=
  match backing with
  | .own => !mapped
  | .slot n => mapped && offset == some n

def landing (backing : Backing) (copied objected : Int) : Option Place :=
  match backing with
  | .slot n => if copied = 4096 then some (.slot n) else none
  | .own => if copied = 4096 then some .context else if objected = 4096 then some .object else none

def allows (s : Settling) (call : Call) : Bool :=
  match s.pc.turn?, call with
  | some t, .finish (some c) _ =>
    !(PgKey.of c.as c.page == PgKey.of s.as t.page && c.episode == t.claim.episode)
  | _, _ => true

/-- Claim the page, `pg_try_claim`. The process ends when the claim aborts. -/
def tryClaim (s : Settling) (page : UInt64) (rest : List UInt64) (started : UInt64) :
    Option Settling :=
  match s.claims.call (.tryClaim s.as page PgSt.requesting.code (some ⟨0, 0, 0, .invalid⟩)) with
  | .error _ => some (s.goto .dead)
  | .ok (claims, .claimed prior claim) =>
    let t : Turn := ⟨page, rest, started, claim, prior, false, .own, .none_⟩
    some (({ s with claims := claims }.note (.claimed page claim.episode)).goto (.checking t))
  | .ok (claims, .failed errno) =>
    some ({ s with claims := claims }.goto
      (if errno = Errno.EBUSY then .waiting page rest started else .finishing false))
  | .ok (_, .finished _) => none

/-- Release the claim, `pg_request_release`. A completion that fails aborts the process. -/
def release (s : Settling) (t : Turn) (how : Leave) : Option Settling :=
  match s.claims.call (.finish (some t.claim) t.final.code) with
  | .ok (claims, .finished _) =>
    some (({ s with claims := claims }.note (.released t.page t.final)).goto (t.after how))
  | .ok (claims, _) => some ({ s with claims := claims }.goto .dead)
  | .error _ => some (s.goto .dead)

def copyLoans (s : Settling) : Settling :=
  { s with rows := loanSnapshot s.loans }.goto (.choosing (loanSnapshot s.loans))

def choose (s : Settling) (now : UInt64) : List UInt64 → Settling
  | [] => s.goto (.finishing true)
  | page :: rest => s.goto (.trying page rest now)

def readHolder (s : Settling) (t : Turn) : Settling :=
  if pageHolder s.loans t.page = 0 then (s.note (.unlent t.page)).goto (.releasing t .moveOn)
  else s.goto (.looking t)

def readShared (s : Settling) (t : Turn) : Settling :=
  s.goto (.sampling { t with shared := pageShared s.loans t.page })

/-- Sample the backing of the page. A shared mapping without a slot is a failure. -/
def sample (s : Settling) (t : Turn) (mapped : Bool) (offset : Option Nat) : Settling :=
  match sampled mapped offset with
  | none => s.goto (.releasing t .fail)
  | some backing => s.goto (.pulling { t with backing := backing })

def pull (s : Settling) (t : Turn) (reply : FetchReply) : Settling :=
  match ctxPagePull reply with
  | none => s.goto .dead
  | some (pull, receipt) => (s.note (.pulled t.page pull t.backing)).goto
    (.comparing { t with receipt := receipt } pull)

def compare (s : Settling) (t : Turn) (pull : Pull) (mapped : Bool) (offset : Option Nat) :
    Settling :=
  if unchanged t.backing mapped offset then
    (s.note (.kept t.page t.backing)).goto (t.pulled pull)
  else s.goto (.leaving t .fail)

def land (s : Settling) (t : Turn) (copied objected : Int) : Settling :=
  match landing t.backing copied objected with
  | none => s.goto (.leaving t .fail)
  | some place => (s.note (.landed t.page t.receipt.episode place)).goto (.queueing t)

/-- Queue the acknowledgement, `ack_installed`, after sending one queued before. -/
def ackInstalled (s : Settling) (t : Turn) (confirmed : Bool) : Settling :=
  if t.receipt.acknowledges t.page = false then s.goto .dead
  else
    let s' := s.ackFlush confirmed
      (.flushing { t with receipt := { t.receipt with ackQueued := true } })
    match s'.pc with
    | .dead => s'
    | _ => { s' with pending := some ⟨t.receipt.target, t.page, t.receipt.episode⟩ }

def readCopy (s : Settling) (t : Turn) (has : Bool) (got : Int) : Settling :=
  if has = true ∧ got = 4096 then (s.note (.found t.page t.backing.place)).goto (.retiring t)
  else s.goto (.leaving t .fail)

def retire (s : Settling) (t : Turn) : Settling :=
  ({ s with loans := pageLendNobody s.loans t.page }.note (.cleared t.page)).goto
    (.leaving { t with final := if t.shared then .shared else .owned } .moveOn)

/-- Leave the scope of the receipt, `source_receipt_finish`: one that is not queued ends the
process. -/
def receiptFinish (s : Settling) (t : Turn) (how : Leave) (confirmed : Bool) : Settling :=
  if t.receipt.episode = 0 then s.goto (.releasing t how)
  else if t.receipt.ackQueued = false then s.goto .dead
  else s.ackFlush confirmed (.releasing t how)

def wait (s : Settling) (page : UInt64) (rest : List UInt64) (started now : UInt64) : Settling :=
  if now - started ≥ 4000000 then s.goto (.finishing false)
  else s.goto (.trying page rest started)

/-- A step of `page_recall_all`, or of another worker. -/
def next (s : Settling) (label : Label) : Option Settling :=
  match s.pc, label with
  | .begin_, .snapshot => some s.copyLoans
  | .choosing rest, .choose now => some (s.choose now rest)
  | .trying page rest started, .claim => s.tryClaim page rest started
  | .checking t, .holder => some (s.readHolder t)
  | .looking t, .shared => some (s.readShared t)
  | .sampling t, .sample mapped offset => some (s.sample t mapped offset)
  | .pulling t, .pull reply => some (s.pull t reply)
  | .comparing t pull, .compare mapped offset => some (s.compare t pull mapped offset)
  | .landing t, .land copied objected => some (s.land t copied objected)
  | .queueing t, .queue confirmed => some (s.ackInstalled t confirmed)
  | .flushing t, .flush confirmed => some (s.ackFlush confirmed (.retiring t))
  | .reading t, .read has got => some (s.readCopy t has got)
  | .retiring t, .retire => some (s.retire t)
  | .leaving t how, .leave confirmed => some (s.receiptFinish t how confirmed)
  | .releasing t how, .release => s.release t how
  | .waiting page rest started, .wait now => some (s.wait page rest started now)
  | .finishing ok, .finish confirmed => some (s.ackFlush confirmed (.returned ok))
  | .dead, _ => none
  | _, .other call =>
    if s.allows call then (s.claims.next call).map fun claims => { s with claims := claims }
    else none
  | _, .lend loans => some { s with loans := loans }
  | _, _ => none

abbrev Step : Settling → Label → Settling → Prop := System.Computed next

end Settling

end Vmctx.PageTransfer
