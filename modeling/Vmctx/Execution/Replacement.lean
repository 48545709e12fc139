import Mathlib.Logic.Basic
import Vmctx.Execution.Object
/-!
# An object is replaced once or not at all

Before the commit the context has the epoch and the object it had; after it, the next epoch and the
new object. An attempt that finds the epoch committed reports it and changes nothing, so there is no
second commit; and a commit whose report was lost leaves the monitor uncertain, so that it does not
return as after a refusal unless the context is dead.
-/

namespace Vmctx.Execution

variable {files : Files} {fd : Int} {expected device inode : UInt64} {start k k' : NativeContext}
  {a : Attempt} {q : VmctxObject} {reply : Except Errno VmctxObject}

/-! ## The context -/

/-- Nothing has been committed; if mappings were removed, the context is killed. -/
structure Fresh (start k : NativeContext) : Prop where
  epoch : k.epoch = start.epoch
  backing : k.backing = start.backing
  commits : k.commits = start.commits
  maps : k.maps = start.maps ∨ k.signalled = true

structure Committed (files : Files) (fd : Int) (expected : UInt64) (start k : NativeContext) :
    Prop where
  epoch : k.epoch = expected + 1
  backing : ∃ file, files.file fd = some file ∧ file.shmem = true ∧ file.readWrite = true ∧
    k.backing = some file.mapping
  commits : k.commits = start.commits + 1

def Tried (files : Files) (fd : Int) (expected : UInt64) (start k : NativeContext)
    (reply : Except Errno VmctxObject) : Prop :=
  Fresh start k ∧ (∃ errno, reply = .error errno) ∨
    Committed files fd expected start k ∧ (reply = .error .EFAULT ∨ ∃ q, reply = .ok q)

theorem Tried.refused {errno : Errno} {dead : Bool} (fresh : Fresh start k) :
    Tried files fd expected start { k with dead } (.error errno) :=
  .inl ⟨⟨fresh.epoch, fresh.backing, fresh.commits, fresh.maps⟩, errno, rfl⟩

namespace NativeContext

theorem unmap_fails {drop : Option Nat → Bool} {munmap : Nat → Option Errno} {errno : Errno}
    {maps left : List (Option Nat)} {i : Nat}
    (failed : unmap drop munmap i maps = (left, false, some errno)) : left = maps := by
  induction maps generalizing i left with
  | nil => cases failed
  | cons map maps ih =>
    simp only [unmap] at failed
    split at failed
    · split at failed
      · cases failed
        rfl
      · cases failed
    · rcases rest : unmap drop munmap (i + 1) maps with ⟨others, changed, error⟩
      rw [rest] at failed
      cases failed
      rw [ih rest]

theorem report_eq {copyOutFails : Bool} (done : report files k q copyOutFails = (k', reply)) :
    k' = k ∧ (reply = .error .EFAULT ∨ ∃ q, reply = .ok q) := by
  simp only [report, Prod.mk.injEq] at done
  obtain ⟨same, rfl⟩ := done
  refine ⟨same.symm, ?_⟩
  split
  · exact .inl rfl
  · exact .inr ⟨_, rfl⟩

theorem commit_tried {next : File} (fresh : Fresh start k) (opened : files.file fd = some next)
    (shmem : next.shmem = true) (readWrite : next.readWrite = true) (epoch : q.epoch = expected + 1)
    (done : commit files k a q next = (k', reply)) : Tried files fd expected start k' reply := by
  simp only [commit] at done
  generalize removal : unmap _ a.munmap 0 k.maps = removed at done
  obtain ⟨maps, changed, failed⟩ := removed
  cases failed with
  | some errno =>
    cases done
    refine .inl ⟨⟨fresh.epoch, fresh.backing, fresh.commits, ?_⟩, errno, rfl⟩
    cases changed with
    | true => exact .inr (Bool.or_true _)
    | false =>
      rw [unmap_fails removal, Bool.or_false]
      exact fresh.maps
  | none =>
    obtain ⟨rfl, said⟩ := report_eq done
    refine .inr ⟨⟨epoch, ⟨next, opened, shmem, readWrite, rfl⟩, ?_⟩, said⟩
    exact congrArg (· + 1) fresh.commits

theorem replace_tried (fresh : Fresh start k) (current : start.epoch = expected)
    (epoch : q.epoch = expected + 1) (done : replace files k a q = (k', reply)) :
    Tried files q.backingFd expected start k' reply := by
  have refused {errno : Errno} (same : (k, .error errno) = (k', reply)) :
      Tried files q.backingFd expected start k' reply := by
    cases same
    exact .inl ⟨fresh, errno, rfl⟩
  simp only [replace] at done
  split at done
  · exact refused done
  · split at done
    · exact refused done
    · next next opened =>
      split at done
      · exact refused done
      · next legal =>
        obtain ⟨shmem, readWrite⟩ : next.shmem = true ∧ next.readWrite = true := by
          simpa using legal
        split at done
        · next same =>
          -- the context has the epoch that is to be replaced, so not the next one
          rw [epoch, fresh.epoch, current] at same
          exact absurd same (by simp)
        · split at done
          · exact refused done
          · split at done
            · exact refused done
            · split at done
              · exact refused done
              · exact refused done
              · split at done
                · exact refused done
                · split at done
                  · cases done
                    exact .refused fresh
                  · split at done
                    · exact refused done
                    · split at done
                      · exact refused done
                      · exact commit_tried fresh opened shmem readWrite epoch done

theorem replace_committed (committed : Committed files q.backingFd expected start k)
    (epoch : q.epoch = expected + 1) (done : replace files k a q = (k', reply)) :
    k' = k ∧ reply ≠ .error .ESRCH := by
  obtain ⟨file, opened, shmem, readWrite, backing⟩ := committed.backing
  have same : q.epoch = k.epoch := epoch.trans committed.epoch.symm
  simp only [replace, opened, shmem, readWrite, same, backing, not_true_eq_false, or_self,
    if_false, if_true] at done
  split at done
  · cases done
    exact ⟨rfl, nofun⟩
  · obtain ⟨same, faulted | ⟨reply, ok⟩⟩ := report_eq done
    · rw [faulted]
      exact ⟨same, nofun⟩
    · rw [ok]
      exact ⟨same, nofun⟩

theorem control_tried (fresh : Fresh start k) (current : start.epoch = expected)
    (done : control files k a (replaceRequest fd expected) = (k', reply)) :
    Tried files fd expected start k' reply := by
  have fresh' : Fresh start { k with dead := k.dead || a.dies } :=
    ⟨fresh.epoch, fresh.backing, fresh.commits, fresh.maps⟩
  have refused {errno : Errno}
      (same : ({ k with dead := k.dead || a.dies }, .error errno) = (k', reply)) :
      Tried files fd expected start k' reply := by
    cases same
    exact .refused fresh
  simp only [control] at done
  split at done
  · exact refused done
  · split at done
    · exact refused done
    · simp only [ctlObject] at done
      split at done
      · exact refused done
      · split at done
        · exact refused done
        · split at done
          · exact refused done
          · split at done
            · next info => cases info
            · split at done
              · exact replace_tried fresh' current rfl done
              · exact refused done

theorem control_committed (committed : Committed files fd expected start k)
    (done : control files k a (replaceRequest fd expected) = (k', reply)) :
    Committed files fd expected start k' ∧ (reply = .error .ESRCH → k'.dead = true) := by
  have committed' : Committed files fd expected start { k with dead := k.dead || a.dies } :=
    ⟨committed.epoch, committed.backing, committed.commits⟩
  have refused {errno : Errno} (other : errno ≠ .ESRCH)
      (same : ({ k with dead := k.dead || a.dies }, .error errno) = (k', reply)) :
      Committed files fd expected start k' ∧ (reply = .error .ESRCH → k'.dead = true) := by
    cases same
    exact ⟨committed', fun gone => absurd (Except.error.inj gone) other⟩
  simp only [control] at done
  split at done
  · next dead =>
    cases done
    exact ⟨committed', fun _ => dead⟩
  · split at done
    · next refusal _ => exact refused (by cases refusal <;> decide) done
    · simp only [ctlObject] at done
      split at done
      · exact refused (by decide) done
      · split at done
        · exact refused (by decide) done
        · split at done
          · exact refused (by decide) done
          · split at done
            · next info => cases info
            · split at done
              · obtain ⟨rfl, alive⟩ := replace_committed committed' rfl done
                exact ⟨committed', fun gone => absurd gone alive⟩
              · exact refused (by decide) done

end NativeContext

/-! ## The attempts -/

variable {attempts : Nat → Attempt} {left attempt : Nat} {uncertain : Bool}
  {replies : List (Except Errno VmctxObject)}

/-- What a replacement that has returned did, for a context that it found at the expected epoch. -/
structure Replaced.Right (files : Files) (fd : Int) (expected : UInt64) (start : NativeContext)
    (r : Replaced) : Prop where
  /-- On success the context has the next epoch and the given object, after one commit. -/
  done : r.result = .done → r.native.epoch = expected + 1 ∧ r.committed = some (expected + 1) ∧
    r.native.commits = start.commits + 1 ∧
    ∃ file, files.file fd = some file ∧ r.native.backing = some file.mapping
  /-- After a refusal the binding is as it was, or the context is dead or killed. -/
  refused : r.result = .refused →
    r.native.epoch = start.epoch ∧ r.native.backing = start.backing ∧ r.native.maps = start.maps ∧
      r.native.commits = start.commits ∨ r.native.dead = true ∨ r.native.signalled = true
  /-- That it is not known follows a copy that failed or a reply that is malformed. -/
  unknown : r.result = .unknown → .error .EFAULT ∈ r.replies ∨
    ∃ q device inode, objectIdentity files fd = .ok (device, inode) ∧ .ok q ∈ r.replies ∧
      q.Malformed expected device inode
  /-- The binding is committed once. -/
  once : r.native.commits ≤ start.commits + 1
  /-- After a commit in a context that is alive the monitor knows it, or knows that it does not
  know. -/
  committed : r.native.commits = start.commits + 1 → r.native.dead = false →
    r.result = .done ∨ r.result = .unknown
  /-- A commit is of the given object and the next epoch, whatever is returned. -/
  object : r.native.commits = start.commits + 1 → r.native.epoch = expected + 1 ∧
    ∃ file, files.file fd = some file ∧ r.native.backing = some file.mapping

theorem Fresh.commits_ne (fresh : Fresh start k) : k.commits ≠ start.commits + 1 := by
  rw [fresh.commits]
  omega

theorem Fresh.refused (fresh : Fresh start k) :
    Replaced.Right files fd expected start ⟨.refused, none, k, replies⟩ where
  done := nofun
  refused _ := by
    obtain same | killed := fresh.maps
    · exact .inl ⟨fresh.epoch, fresh.backing, same, fresh.commits⟩
    · exact .inr (.inr killed)
  unknown := nofun
  once := by rw [fresh.commits]; omega
  committed commits := absurd commits fresh.commits_ne
  object commits := absurd commits fresh.commits_ne

theorem unknown_right (state : Fresh start k ∨ Committed files fd expected start k)
    (why : .error .EFAULT ∈ replies ∨ ∃ q device inode,
      objectIdentity files fd = .ok (device, inode) ∧ .ok q ∈ replies ∧
        q.Malformed expected device inode) :
    Replaced.Right files fd expected start ⟨.unknown, none, k, replies⟩ where
  done := nofun
  refused := nofun
  unknown _ := why
  once := by
    obtain fresh | committed := state
    · rw [fresh.commits]
      omega
    · exact Nat.le_of_eq committed.commits
  committed _ _ := .inr rfl
  object commits := by
    obtain fresh | committed := state
    · exact absurd commits fresh.commits_ne
    · exact ⟨committed.epoch, committed.backing.imp fun _ file => ⟨file.1, file.2.2.2⟩⟩

theorem Committed.gone (committed : Committed files fd expected start k) (dead : k.dead = true) :
    Replaced.Right files fd expected start ⟨.refused, none, k, replies⟩ where
  done := nofun
  refused _ := .inr (.inl dead)
  unknown := nofun
  once := Nat.le_of_eq committed.commits
  committed _ alive := absurd (dead.symm.trans alive) nofun
  object _ := ⟨committed.epoch, committed.backing.imp fun _ file => ⟨file.1, file.2.2.2⟩⟩

theorem Committed.known {q : VmctxObject} (committed : Committed files fd expected start k)
    (epoch : q.epoch = expected + 1) :
    Replaced.Right files fd expected start ⟨.done, some q.epoch, k, replies⟩ where
  done _ := ⟨committed.epoch, congrArg some epoch, committed.commits,
    committed.backing.imp fun _ file => ⟨file.1, file.2.2.2⟩⟩
  refused := nofun
  unknown := nofun
  once := Nat.le_of_eq committed.commits
  committed _ _ := .inl rfl
  object _ := ⟨committed.epoch, committed.backing.imp fun _ file => ⟨file.1, file.2.2.2⟩⟩

theorem replaceLoop_right (identity : objectIdentity files fd = .ok (device, inode))
    (current : start.epoch = expected) (left : Nat)
    (state : Fresh start k ∨ uncertain = true ∧ Committed files fd expected start k)
    (faulted : uncertain = true → .error .EFAULT ∈ replies) (some : left = 0 → uncertain = true) :
    (replaceLoop files fd expected device inode attempts left attempt uncertain k replies).Right
      files fd expected start := by
  induction left generalizing k attempt uncertain replies with
  | zero =>
    exact unknown_right (state.imp_right And.right) (.inl (faulted (some rfl)))
  | succ left ih =>
    simp only [replaceLoop]
    rcases controlled : k.control files (attempts attempt) (replaceRequest fd expected) with
      ⟨k', reply⟩
    simp only
    have after : (∃ errno, reply = .error errno) ∧ Fresh start k' ∨
        Committed files fd expected start k' ∧ (reply = .error .ESRCH → k'.dead = true) ∧
          (uncertain = false → reply = .error .EFAULT ∨ ∃ q, reply = .ok q) := by
      obtain fresh | ⟨sure, committed⟩ := state
      · obtain ⟨fresh, refused⟩ | ⟨committed, said⟩ :=
          NativeContext.control_tried fresh current controlled
        · exact .inl ⟨refused, fresh⟩
        · refine .inr ⟨committed, fun gone => ?_, fun _ => said⟩
          obtain faulted | ⟨q, ok⟩ := said
          · cases gone.symm.trans faulted
          · cases gone.symm.trans ok
      · obtain ⟨committed, dead⟩ := NativeContext.control_committed committed controlled
        exact .inr ⟨committed, dead, fun unsure => by rw [sure] at unsure; cases unsure⟩
    cases reply with
    | ok q =>
      obtain ⟨⟨errno, refused⟩, -⟩ | ⟨committed, -, -⟩ := after
      · cases refused
      · simp only
        split
        · next malformed =>
          exact unknown_right (.inr committed)
            (.inr ⟨q, device, inode, identity, List.mem_cons_self, malformed⟩)
        · next wellFormed =>
          simp only [VmctxObject.Malformed, not_or, not_not] at wellFormed
          exact committed.known wellFormed.2.2.2.2.2.1
    | error errno =>
      simp only
      split
      · next gone =>
        obtain ⟨-, fresh⟩ | ⟨committed, dead, -⟩ := after
        · exact fresh.refused
        · exact committed.gone (dead (congrArg Except.error gone))
      · split
        · next fault =>
          refine ih (after.imp And.right fun found => ⟨rfl, found.1⟩) (fun _ => ?_) fun _ => rfl
          exact List.mem_cons.mpr (.inl (congrArg Except.error fault.symm))
        · next noFault =>
          have still (sure : uncertain = true) : .error .EFAULT ∈ .error errno :: replies :=
            List.mem_cons_of_mem _ (faulted sure)
          split
          · next certain =>
            obtain ⟨-, fresh⟩ | ⟨-, -, said⟩ := after
            · exact fresh.refused
            · obtain fault | ⟨q, ok⟩ := said (by simpa using certain)
              · exact absurd (Except.error.inj fault) noFault
              · cases ok
          · next uncertainly =>
            have sure : uncertain = true := by simpa using uncertainly
            split
            · exact unknown_right (after.imp And.right And.left) (.inl (still sure))
            · exact ih (after.imp And.right fun found => ⟨sure, found.1⟩) still fun _ => sure

/-- What a replacement of a binding did that has not ended the monitor. -/
structure Rebound (files : Files) (fd : Int) (start : NativeContext) (b : ObjectBinding)
    (result : Bool) (b' : ObjectBinding) (k : NativeContext) : Prop where
  /-- On success the monitor has the new object and epoch, as the context. -/
  done : result = true → b' = ⟨fd, k.epoch⟩ ∧ k.epoch = b.epoch + 1 ∧
    k.commits = start.commits + 1 ∧
    ∃ file, files.file fd = some file ∧ k.backing = some file.mapping
  /-- On a refusal it keeps its own. -/
  refused : result = false → b' = b ∧
    (k.epoch = start.epoch ∧ k.backing = start.backing ∧ k.commits = start.commits ∨
      k.dead = true ∨ k.signalled = true)

theorem bindingReplace_rebound {b previous b' : ObjectBinding} {result : Bool}
    (right : (objectReplaceCall files fd b.epoch attempts start).Right files fd b.epoch start)
    (bound : bindingReplace files b previous fd attempts start = some (result, b', k)) :
    Rebound files fd start b result b' k := by
  have same (kept : (false, b, start) = (result, b', k)) :
      Rebound files fd start b result b' k := by
    cases kept
    exact ⟨nofun, fun _ => ⟨rfl, .inl ⟨rfl, rfl, rfl⟩⟩⟩
  simp only [bindingReplace] at bound
  split at bound
  · exact same (Option.some.inj bound)
  · split at bound
    · exact same (Option.some.inj bound)
    · next seen =>
      have seen : b = previous := not_not.mp seen
      subst seen
      split at bound
      · exact same (Option.some.inj bound)
      · split at bound
        · cases bound
        · next refused =>
          cases bound
          refine ⟨nofun, fun _ => ⟨rfl, ?_⟩⟩
          exact (right.refused refused).imp_left fun unchanged =>
            ⟨unchanged.1, unchanged.2.1, unchanged.2.2.2⟩
        · next done =>
          split at bound
          · cases bound
          · cases bound
            obtain ⟨epoch, -, commits, object⟩ := right.done done
            exact ⟨fun _ => ⟨by rw [epoch], epoch, commits, object⟩, nofun⟩

/-- For every outcome of every attempt the object is replaced once or not at all, and a binding that
is not given up is the context's, or the context is gone. -/
theorem object_replacement (files : Files) (fd : Int) (expected : UInt64)
    (attempts : Nat → Attempt) (start : NativeContext) (current : start.epoch = expected) :
    (objectReplaceCall files fd expected attempts start).Right files fd expected start ∧
    ∀ b previous result b' k, b.epoch = expected →
      bindingReplace files b previous fd attempts start = some (result, b', k) →
      Rebound files fd start b result b' k := by
  have fresh : Fresh start start := ⟨rfl, rfl, rfl, .inl rfl⟩
  have right :
      (objectReplaceCall files fd expected attempts start).Right files fd expected start := by
    simp only [objectReplaceCall]
    split
    · exact fresh.refused
    · next device inode identity =>
      split
      · exact fresh.refused
      · exact replaceLoop_right identity current 64 (.inl fresh) nofun nofun
  refine ⟨right, ?_⟩
  rintro b previous result b' k rfl bound
  exact bindingReplace_rebound right bound

def smooth : Attempt := ⟨false, none, false, false, .stopped, false, false, 2, fun _ => none⟩

/-- The report of the first attempt is lost, the second is refused, the third finds the commit. -/
def lostReport : Nat → Attempt
  | 0 => { smooth with copyOutFails := true }
  | 1 => { smooth with refused := some .contended }
  | _ => smooth

def twoObjects : Files where
  file fd := some ⟨fd.toNat, true, true⟩
  stat fd := .ok ⟨0, 1, fd.toNat.toUInt64⟩
  inode mapping := ⟨0, 1, mapping.toUInt64⟩

def atFour : NativeContext := ⟨false, false, true, false, some 7, none, 4, [none, some 7], 0⟩

/-- The report of a replacement is lost, and the next attempts find it made. -/
theorem object_replacement_lost_report :
    (objectReplaceCall twoObjects 8 4 lostReport atFour).Right twoObjects 8 4 atFour ∧
    (objectReplaceCall twoObjects 8 4 lostReport atFour).result = .done ∧
    (objectReplaceCall twoObjects 8 4 lostReport atFour).replies.length = 3 :=
  ⟨(object_replacement twoObjects 8 4 lostReport atFour rfl).1, by decide, by decide⟩

end Vmctx.Execution
