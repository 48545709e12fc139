import Mathlib.Data.List.Basic
import Vmctx.Custody.Owners
/-!
# The custody invariant

`Good` holds of the kernel at its start and is kept by every section, so it holds in every state of
every run. The agreement of the table with the owners of reservations follows page by page from
`step_moves`; the well-formedness of transfer tickets change by change from `step_tickets`.
-/

namespace Vmctx.Custody

open Kernel Vmctx.System Function List

variable {k k' : Kernel} {a : Act} {reply : Reply}

namespace PageState

variable {s r : PageState}

theorem core_eq : s.core = r.core ↔
    s.record = r.record ∧ s.entry = r.entry ∧ s.wrote = r.wrote ∧ s.erasures = r.erasures := by
  simp [core, PageState.ext_iff]

end PageState

variable {p : Page} {s' : PageState} {t' : Transfer} {who : Nat} {op' : LocalOp}
  {Inv : Kernel → Prop}

theorem Move.agreed (agreed : k.Agreed) (move : Move k a k' p) (h : Holder) :
    k'.table p = some h ↔ k'.Holds h p := by
  cases move with
  | quiet page holding =>
    rw [holding, ← agreed, table, table, (PageState.core_eq.mp page).2.1]
  | erased _ page holding =>
    rw [holding, ← agreed, table, table, (PageState.core_eq.mp page).2.1]
    simp [PageState.erase, Function.comp_def]
  | wrote _ page holding =>
    rw [holding, ← agreed, table, table, (PageState.core_eq.mp page).2.1]
    rfl
  | @reserved holder unreserved _ page holding =>
    rw [holding, table, (PageState.core_eq.mp page).2.1]
    simp [PageState.reserve, agreed.unheld unreserved h, eq_comm]
  | @released holder held _ page holding =>
    rw [holding, table, (PageState.core_eq.mp page).2.1]
    have named := (agreed p holder).mpr held
    have only : ¬ (k.Holds h p ∧ h ≠ holder) := by
      rintro ⟨holds, apart⟩
      rw [(agreed p h).mpr holds, Option.some.injEq] at named
      exact apart named
    simp [PageState.release, only]
  | recalled _ unreserved _ page holding =>
    rw [holding, table, (PageState.core_eq.mp page).2.1]
    simp [PageState.reserve, PageState.write, agreed.unheld unreserved h, eq_comm]
  | @unlinked id t landed gen ticket here _ _ page holding =>
    rw [holding, table, (PageState.core_eq.mp page).2.1]
    have named := (agreed p (.recallTicket id)).mpr ⟨t, ticket, here⟩
    have only : ¬ (k.Holds h p ∧ h ≠ .recallTicket id) := by
      rintro ⟨holds, apart⟩
      rw [(agreed p h).mpr holds, Option.some.injEq] at named
      exact apart named
    unfold recallUnlinkPage
    split <;> simp [PageState.release, only]

theorem Transfer.Formed.run {t : Transfer} {pc : TransferPc} {bytes : PageBytes}
    (formed : t.Formed) (was : t.pc.capturing = true) (now : pc.running = true)
    (sound : pc.Sound) : Transfer.Formed { t with pc := pc, bytes := bytes } := by
  have guarded := formed.capturing was
  have running : t.pc.running = true := by
    cases pc : t.pc <;> simp_all [TransferPc.running, TransferPc.capturing, TransferPc.Sound]
  have facts := formed.running running
  constructor
  · intro (at_ : pc = .replying)
    rw [at_] at now
    cases now
  · exact fun _ => facts
  · intro (unstarted : t.attempted = false)
    rw [facts.1] at unstarted
    cases unstarted
  · intro read (at_ : pc = .reading read)
    rw [at_] at now
    cases now
  · intro cancel (at_ : pc = .dropping cancel)
    rw [at_] at now
    cases now
  · exact sound
  · exact fun _ => guarded
  · exact fun _ _ => guarded

theorem captureEnter_running (s : PageState) (id : Nat) (vma : Option Vma) (held : Bool)
    (copy : Copy) : (captureEnter s id vma held copy).1.running = true := by
  simp only [captureEnter]
  repeat' split
  all_goals rfl

theorem captureEnter_sound (s : PageState) (id : Nat) (vma : Option Vma) (held : Bool)
    (copy : Copy) : (captureEnter s id vma held copy).1.Sound := by
  simp only [captureEnter]
  repeat' split
  all_goals first
    | trivial
    | (simp only [TransferPc.Sound]; simp_all)

theorem Change.formed {id : Nat} {t : Transfer} (formed : t.Formed)
    (change : Change k id t a t' s') : t'.Formed := by
  cases change with
  | replied at_ =>
    have fresh := formed.replying at_
    have unstarted := formed.unstarted fresh
    constructor <;> simp_all [TransferPc.running, TransferPc.capturing, Transfer.succeeded,
      TransferPc.Sound]
  | attempts waiting _ unsettled first =>
    have unstarted := formed.unstarted first
    constructor <;> simp_all [TransferPc.running, TransferPc.capturing, Transfer.succeeded,
      TransferPc.Sound]
  | guardFails at_ =>
    have running := formed.running (by rw [at_]; rfl)
    constructor <;> simp_all [TransferPc.running, TransferPc.capturing, Transfer.succeeded,
      TransferPc.Sound]
  | guards at_ =>
    have running := formed.running (by rw [at_]; rfl)
    constructor <;> simp_all [TransferPc.running, TransferPc.Sound]
  | reads at_ =>
    exact formed.run (by rw [at_]; rfl) (captureEnter_running _ _ _ _ _) (captureEnter_sound ..)
  | shareFails at_ | shareLoses at_ | shareRestores at_ | shareWins at_ | markMoved at_
  | markFails at_ | takeLost at_ | takes at_ => exact formed.run (by rw [at_]; rfl) rfl trivial
  | shareClaims at_ =>
    have sound := formed.sound
    rw [at_] at sound
    exact formed.run (by rw [at_]; rfl) rfl ⟨sound, rfl⟩
  | marks at_ here => exact formed.run (by rw [at_]; rfl) rfl here
  | @finishes copied error sv at_ =>
    have running := formed.running (by rw [at_]; rfl)
    -- A capture that returned without an error still holds its guard.
    have held : (if (k.pages t.page).cancelled (.transfer id) = true then some Errno.ESTALE
        else error) = none → t.guarded = true := by
      intro returned
      split at returned
      · cases returned
      · apply formed.succeeded running.2.1
        rw [Transfer.succeeded, at_, returned]
    constructor <;> simp_all [TransferPc.running, TransferPc.capturing, Transfer.succeeded,
      TransferPc.Sound]
  | offers waiting _ unsettled captured =>
    have held := formed.succeeded unsettled (by simp [Transfer.succeeded, waiting, captured])
    constructor <;> simp_all [TransferPc.running, TransferPc.capturing, TransferPc.Sound]
  | readEnds at_ =>
    have reading := formed.reading _ at_
    have held := formed.succeeded reading.2.1 (by simp [Transfer.succeeded, at_, reading])
    constructor <;> simp_all [TransferPc.running, TransferPc.capturing, TransferPc.Sound]
  | settles waiting _ unsettled | acks waiting _ unsettled =>
    have unstarted := formed.unstarted
    constructor <;> simp_all [TransferPc.running, TransferPc.capturing, TransferPc.Sound]
  | drops at_ =>
    have settled := formed.dropping _ at_
    have unstarted := formed.unstarted
    constructor <;> simp_all [TransferPc.running, TransferPc.capturing, TransferPc.Sound]

theorem Transfer.Formed.begun (who : Nat) (p : Page) (mmIdentity : Nat) :
    (Transfer.begun who p mmIdentity).Formed := by
  constructor <;>
    simp [Transfer.begun, TransferPc.running, TransferPc.capturing, Transfer.succeeded,
      TransferPc.Sound]

theorem exit_tickets {id : Nat} (ran : k.transferOwnerExit who = some (k', reply))
    (ticket : k'.transfers id = some t') :
    ∃ t poisoned, k.transfers id = some t ∧ t' = { t with poisoned := poisoned } := by
  simp only [transferOwnerExit] at ran
  split at ran <;> cases ran
  obtain ⟨t, found, rfl⟩ := Option.map_eq_some_iff.mp ticket
  split
  · exact ⟨t, _, found, rfl⟩
  · exact ⟨t, t.poisoned, found, rfl⟩

theorem exit_keeps {id : Nat} {t : Transfer} (ran : k.transferOwnerExit who = some (k', reply))
    (ticket : k.transfers id = some t) : ∃ t', k'.transfers id = some t' := by
  simp only [transferOwnerExit] at ran
  split at ran <;> cases ran
  simp [ticket]

theorem step_formed (formed : ∀ id t, k.transfers id = some t → t.Formed)
    (ran : step k a = some (k', reply)) {id : Nat} (ticket : k'.transfers id = some t') :
    t'.Formed := by
  cases step_tickets ran with
  | untouched _ transfers =>
    rw [transfers] at ticket
    exact formed id t' ticket
  | begun _ _ transfers =>
    rw [transfers, update_apply] at ticket
    split at ticket
    · cases ticket
      exact .begun _ _ _
    · exact formed id t' ticket
  | changed found change _ transfers =>
    rw [transfers, update_apply] at ticket
    split at ticket
    · cases ticket
      exact change.formed (formed _ _ found)
    · exact formed id t' ticket
  | freed _ _ _ transfers | disposed _ _ _ transfers =>
    rw [transfers, update_apply] at ticket
    split at ticket
    · cases ticket
    · exact formed id t' ticket
  | exited _ exits =>
    obtain ⟨t, poisoned, found, rfl⟩ := exit_tickets exits ticket
    have before := formed id t found
    exact ⟨before.replying, before.running, before.unstarted, before.reading, before.dropping,
      before.sound, before.capturing, before.succeeded⟩

theorem exit_listed (ran : k.transferOwnerExit who = some (k', reply)) :
    k'.transferListed = k.transferListed.filter (fun id => !k.ownedBy who id) ∧
      k'.transferLive = k.transferLive - (k.transferListed.filter (k.ownedBy who)).length ∧
      k'.transferNext = k.transferNext ∧
      ∀ id t, k.transfers id = some t → id ∈ k.transferListed → t.owner = who → t.pc = .idle := by
  simp only [transferOwnerExit] at ran
  split at ran <;> cases ran
  next none_busy =>
  refine ⟨rfl, rfl, rfl, fun id t ticket listed mine => ?_⟩
  simp only [any_filter, Bool.not_eq_true, any_eq_false, Bool.and_eq_true, not_and]
    at none_busy
  have busy := none_busy id listed (by simp [ownedBy, ticket, mine])
  simpa [ticket] using busy

theorem Change.listed {id : Nat} {t : Transfer} (listing : k.Listing)
    (ticket : k.transfers id = some t) (change : Change k id t a t' s') :
    id ∈ k.transferListed := by
  by_contra unlisted
  have waiting := listing.unlisted id t ticket unlisted
  cases change <;> simp_all

section Listing

variable {id : Nat} {t : Transfer}

/-- The listing after a new ticket. -/
theorem Kernel.Listing.begin_ (listing : k.Listing)
    (transfers : k'.transfers = update k.transfers (k.transferNext + 1) (some t))
    (listed : k'.transferListed = (k.transferNext + 1) :: k.transferListed)
    (next : k'.transferNext = k.transferNext + 1)
    (live : k'.transferLive = k.transferLive + 1) : k'.Listing := by
  have unused := listing.transferFresh (k.transferNext + 1) (Nat.lt_succ_self _)
  constructor
  · intro id member
    rw [listed, mem_cons] at member
    rw [transfers, update_apply]
    split
    · exact ⟨_, rfl⟩
    · next other => exact listing.listed id (member.resolve_left other)
  · rw [listed, nodup_cons]
    refine ⟨fun member => ?_, listing.listedOnce⟩
    obtain ⟨t, found⟩ := listing.listed _ member
    rw [unused] at found
    cases found
  · intro id t ticket unlisted
    rw [listed, mem_cons, not_or] at unlisted
    rw [transfers, update_of_ne unlisted.1] at ticket
    exact listing.unlisted id t ticket unlisted.2
  · rw [live, listed, listing.counted, length_cons]
  · intro id beyond
    rw [next] at beyond
    rw [transfers, update_of_ne (by omega)]
    exact listing.transferFresh id (by omega)

/-- The listing after one ticket changed and stays listed, or went and is listed no longer. -/
theorem Kernel.Listing.update (listing : k.Listing) {after : Option Transfer}
    (ticket : k.transfers id = some t) (transfers : k'.transfers = update k.transfers id after)
    (next : k'.transferNext = k.transferNext) (once : k'.transferListed.Nodup)
    (own : id ∈ k'.transferListed ↔ after.isSome = true)
    (others : ∀ other, other ≠ id → (other ∈ k'.transferListed ↔ other ∈ k.transferListed))
    (counted : k'.transferLive = k'.transferListed.length) : k'.Listing := by
  refine ⟨?_, once, ?_, counted, ?_⟩
  · intro other member
    rw [transfers, update_apply]
    split
    · next same => exact Option.isSome_iff_exists.mp (own.mp (same ▸ member))
    · next apart => exact listing.listed other ((others other apart).mp member)
  · intro other t found unlisted
    rw [transfers, update_apply] at found
    split at found
    · next same => exact absurd (own.mpr (by rw [found]; rfl)) (same ▸ unlisted)
    · next apart => exact listing.unlisted other t found (mt (others other apart).mpr unlisted)
  · intro other beyond
    rw [next] at beyond
    have fresh := listing.transferFresh other beyond
    have apart : other ≠ id := by
      rintro rfl
      cases ticket.symm.trans fresh
    rw [transfers, update_of_ne apart, fresh]

/-- The listing after a thread left its tickets. -/
theorem Kernel.Listing.exit (listing : k.Listing)
    (exits : k.transferOwnerExit who = some (k', reply)) : k'.Listing := by
  obtain ⟨listed, live, next, waiting⟩ := exit_listed exits
  constructor
  · intro id member
    rw [listed, mem_filter] at member
    obtain ⟨t, found⟩ := listing.listed id member.1
    exact exit_keeps exits found
  · rw [listed]
    exact listing.listedOnce.filter _
  · intro id t' found unlisted
    obtain ⟨t, poisoned, before, rfl⟩ := exit_tickets exits found
    by_cases member : id ∈ k.transferListed
    · have mine : t.owner = who := by
        rw [listed, mem_filter] at unlisted
        simpa [member, ownedBy, before] using unlisted
      exact waiting id t before member mine
    · exact listing.unlisted id t before member
  · have split := length_eq_length_filter_add (l := k.transferListed) (k.ownedBy who)
    rw [live, listed, listing.counted]
    omega
  · intro id beyond
    rw [next] at beyond
    cases found : k'.transfers id with
    | none => rfl
    | some t' =>
      obtain ⟨t, poisoned, before, -⟩ := exit_tickets exits found
      rw [listing.transferFresh id beyond] at before
      cases before

end Listing

theorem step_listing (listing : k.Listing) (ran : step k a = some (k', reply)) : k'.Listing := by
  have once := listing.listedOnce
  cases step_tickets ran with
  | untouched _ transfers listed next live =>
    obtain ⟨found, -, unlisted, counted, fresh⟩ := listing
    rw [← transfers, ← listed] at found unlisted
    rw [← transfers, ← next] at fresh
    exact ⟨found, listed ▸ once, unlisted, by rw [live, listed, counted], fresh⟩
  | begun _ _ transfers listed next live => exact listing.begin_ transfers listed next live
  | changed ticket change _ transfers listed next live =>
    refine listing.update ticket transfers next (listed ▸ once) ?_ (fun _ _ => by rw [listed]) ?_
    · rw [listed]
      exact iff_of_true (change.listed listing ticket) rfl
    · rw [live, listed, listing.counted]
  | @freed id t ticket spent _ transfers listed next live =>
    have here : id ∈ k.transferListed := by
      by_contra unlisted
      have waiting := listing.unlisted id t ticket unlisted
      rw [waiting] at spent
      rcases spent with replying | ⟨-, -, member, -⟩
      · cases replying
      · exact unlisted member
    refine listing.update ticket transfers next (listed ▸ once.erase id) ?_ ?_ ?_
    · rw [listed]
      exact iff_of_false once.not_mem_erase nofun
    · intro other apart
      rw [listed, mem_erase_of_ne apart]
    · rw [live, listed, listing.counted, length_erase_of_mem here]
  | disposed ticket gone _ transfers listed next live =>
    refine listing.update ticket transfers next (listed ▸ once) ?_ (fun _ _ => by rw [listed]) ?_
    · rw [listed]
      exact iff_of_false gone nofun
    · rw [live, listed, listing.counted]
  | exited _ exits => exact listing.exit exits

theorem step_distinct (good : k.Good) (ran : step k a = some (k', reply)) {id : Nat}
    (found : k'.ops id = some op') : op'.held.Nodup := by
  cases step_ops ran with
  | untouched _ ops =>
    rw [ops] at found
    exact good.distinct id op' found
  | begun _ ops =>
    rw [ops, update_apply] at found
    split at found
    · cases found
      exact nodup_nil
    · exact good.distinct id op' found
  | @changed other op _ _ before change ops =>
    rw [ops, update_apply] at found
    split at found
    · cases found
      have distinct := good.distinct other op before
      cases change with
      | @reserves kind p rest held nomem unreserved =>
        refine nodup_cons.mpr ⟨fun member => ?_, distinct⟩
        exact good.agreed.unheld unreserved (.guard other) ⟨_, before, member⟩
      | fails | passes | pins => exact distinct
      | releases => exact (nodup_cons.mp distinct).2
    · exact good.distinct id op' found
  | ended _ _ ops =>
    rw [ops, update_apply] at found
    split at found
    · cases found
    · exact good.distinct id op' found

theorem step_covers (good : k.Good) (ran : step k a = some (k', reply)) {id : Nat}
    (found : k'.ops id = some op') (going : ∀ result, op'.pc ≠ .ending result)
    (own : p ∈ op'.kind.pages) : p ∈ op'.held ∨ p ∈ op'.todo := by
  cases step_ops ran with
  | untouched _ ops =>
    rw [ops] at found
    exact good.covers id op' found going p own
  | begun _ ops =>
    rw [ops, update_apply] at found
    split at found
    · cases found
      exact .inr own
    · exact good.covers id op' found going p own
  | @changed other op _ _ before change ops =>
    rw [ops, update_apply] at found
    split at found
    · cases found
      cases change with
      | @reserves kind q rest held nomem unreserved =>
        rcases good.covers other _ before (by simp) p own with member | member
        · exact .inl (mem_cons_of_mem _ member)
        · rcases mem_cons.mp member with rfl | later
          · exact .inl (mem_cons_self ..)
          · exact .inr later
      | fails | releases => exact absurd rfl (going _)
      | passes | pins => exact good.covers other _ before (by simp) p own
    · exact good.covers id op' found going p own
  | ended _ _ ops =>
    rw [ops, update_apply] at found
    split at found
    · cases found
    · exact good.covers id op' found going p own

theorem step_recallFresh (good : k.Good) (ran : step k a = some (k', reply)) {id : Nat}
    (beyond : k'.recallNext < id) : k'.recalls id = none := by
  cases step_recalls ran with
  | untouched recalls next =>
    rw [recalls]
    exact good.recallFresh id (by omega)
  | begun _ _ recalls next =>
    rw [recalls, update_of_ne (by omega)]
    exact good.recallFresh id (by omega)
  | changed ticket _ recalls next =>
    have unused := good.recallFresh id (by omega)
    rw [recalls, update_apply]
    split
    · next same =>
      rw [← same, unused] at ticket
      cases ticket
    · exact unused
  | ended _ _ recalls next =>
    rw [recalls, update_apply]
    split
    · rfl
    · exact good.recallFresh id (by omega)

theorem step_opFresh (good : k.Good) (ran : step k a = some (k', reply)) {id : Nat}
    (beyond : k'.opNext < id) : k'.ops id = none := by
  cases step_ops ran with
  | untouched _ ops next =>
    rw [ops]
    exact good.opFresh id (by omega)
  | begun _ ops next =>
    rw [ops, update_of_ne (by omega)]
    exact good.opFresh id (by omega)
  | changed _ found _ ops next =>
    have unused := good.opFresh id (by omega)
    rw [ops, update_apply]
    split
    · next same =>
      rw [← same, unused] at found
      cases found
    · exact unused
  | ended _ _ ops next =>
    rw [ops, update_apply]
    split
    · rfl
    · exact good.opFresh id (by omega)

theorem Kernel.Good.step (good : k.Good) (ran : step k a = some (k', reply)) : k'.Good where
  toListing := step_listing good.toListing ran
  agreed p h := (step_moves good ran p).agreed good.agreed h
  distinct _ _ found := step_distinct good ran found
  covers _ _ found going _ own := step_covers good ran found going own
  formed _ _ ticket := step_formed good.formed ran ticket
  recallFresh _ beyond := step_recallFresh good ran beyond
  opFresh _ beyond := step_opFresh good ran beyond

theorem Kernel.Good.start (memory : Nat → PageBytes) (pins traceId monTgid tgid : Nat → Nat) :
    (Kernel.start memory pins traceId monTgid tgid).Good where
  agreed p h := by cases h <;> simp [Kernel.start, table, Holds, PageState.fresh]
  distinct := by simp [Kernel.start]
  covers := by simp [Kernel.start]
  formed := by simp [Kernel.start]
  listed := by simp [Kernel.start]
  listedOnce := nodup_nil
  unlisted := by simp [Kernel.start]
  counted := rfl
  recallFresh _ _ := rfl
  opFresh _ _ := rfl
  transferFresh _ _ := rfl

def ReachedWhen (Cond : Kernel → Act → Prop) (k : Kernel) : Prop :=
  ∃ memory pins traceId monTgid tgid,
    Reach (Guarded Cond Step) (Kernel.start memory pins traceId monTgid tgid) k

def Reached (k : Kernel) : Prop :=
  ∃ memory pins traceId monTgid tgid,
    Reach Step (Kernel.start memory pins traceId monTgid tgid) k

theorem Step.ran (next : Step k a k') : ∃ reply, Custody.step k a = some (k', reply) := by
  obtain ⟨⟨after, reply⟩, ran, rfl⟩ := Option.map_eq_some_iff.mp next
  exact ⟨reply, ran⟩

/-- What holds of a kernel at its start and is kept by every section from a reached kernel holds of
every reached kernel. -/
theorem Reached.invariant (reached : Reached k)
    (keeps : ∀ before a after reply, Reached before → Inv before →
      Custody.step before a = some (after, reply) → Inv after)
    (base : ∀ memory pins traceId monTgid tgid,
      Inv (Kernel.start memory pins traceId monTgid tgid)) : Inv k := by
  obtain ⟨memory, pins, traceId, monTgid, tgid, run⟩ := reached
  have known : ∀ state, Reach Step (Kernel.start memory pins traceId monTgid tgid) state →
      Reached state := fun state earlier => ⟨_, _, _, _, _, earlier⟩
  refine run.invariant_under known ?_ (base ..)
  intro before a after earlier inv next
  obtain ⟨reply, ran⟩ := Step.ran next
  exact keeps before a after reply earlier inv ran

variable {Cond : Kernel → Act → Prop}

theorem ReachedWhen.reached (run : ReachedWhen Cond k) : Reached k := by
  obtain ⟨memory, pins, traceId, monTgid, tgid, run⟩ := run
  exact ⟨_, _, _, _, _, run.mono fun _ _ _ next => next.2⟩

theorem ReachedWhen.invariant (run : ReachedWhen Cond k)
    (keeps : ∀ before a after reply, Reached before → Cond before a → Inv before →
      Custody.step before a = some (after, reply) → Inv after)
    (base : ∀ memory pins traceId monTgid tgid,
      Inv (Kernel.start memory pins traceId monTgid tgid)) : Inv k := by
  obtain ⟨memory, pins, traceId, monTgid, tgid, run⟩ := run
  have known : ∀ state, Reach (Guarded Cond Step)
      (Kernel.start memory pins traceId monTgid tgid) state → Reached state :=
    fun state earlier => ReachedWhen.reached ⟨_, _, _, _, _, earlier⟩
  refine run.invariant_under known ?_ (base ..)
  intro before a after earlier inv next
  obtain ⟨reply, ran⟩ := Step.ran next.2
  exact keeps before a after reply earlier next.1 inv ran

theorem Reached.good (reached : Reached k) : k.Good :=
  reached.invariant (fun _ _ _ _ _ good ran => good.step ran) Kernel.Good.start

/-- A kernel with one supplier: every thread is in its group and every address space has the same
identity. Runs on fixed inputs start here. -/
def Kernel.boot : Kernel :=
  Kernel.start (fun _ => zeroPage) (fun _ => 1) (fun _ => 7) (fun _ => 3) (fun _ => 3)

theorem Reached.exhibits {labels : List Act} {c : Kernel → Bool}
    (ran : (exec next Kernel.boot labels).any c = true) : ∃ k, Reached k ∧ c k = true := by
  obtain ⟨k, run, passes⟩ := exec_exhibits ran
  exact ⟨k, ⟨_, _, _, _, _, run⟩, passes⟩

end Vmctx.Custody
