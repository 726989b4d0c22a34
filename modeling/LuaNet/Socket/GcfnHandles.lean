import LuaNet.Socket.GcfnCalls

/-! What `delgcfn` removes. A handle is the address of a closure, and the address of a closure
that is gone may be given to the next one: exactly then, and where the call looks at another frame
of the gc thread, `delgcfn` goes wrong. -/

namespace LuaNet.Socket

open LuaNet.Lib

def GcfnWorld.seen (w : GcfnWorld) (fs : List GcfnFrame) (onThread : Bool) : List GcFn :=
  if onThread then [] else w.frame fs

/-- `delgcfn`, given the handle of `r`, answers whether `r` is registered, and removes `r` and
nothing else. -/
def DelExact (w : GcfnWorld) (fs : List GcfnFrame) (onThread : Bool) (r : GcFn) : Prop :=
  let d := w.delStep fs onThread (.ptr r.addr)
  d.2.2 = .bool (r ∈ w.registered) ∧ d.1.sock.stack = w.sock.stack.erase r ∧
    d.1.inner = w.inner.erase r

def DelLaw (w : GcfnWorld) (fs : List GcfnFrame) (f : GcfnFrame) (_ : GcfnAns) : Prop :=
  match f with
  | .entering (.delgcfn onThread (.issued k)) =>
    ∀ r, w.made[k]? = some r → DelExact w fs (onThread && runsOnThread fs) r
  | .entering (.delgcfn onThread (.given h)) =>
    (∀ r ∈ w.made, h ≠ .ptr r.addr) → (w.delStep fs (onThread && runsOnThread fs) h).1 = w
  | _ => True

/-- The registration is not out of sight, and no other one in sight has its address. -/
def NamedBy (w : GcfnWorld) (fs : List GcfnFrame) (onThread : Bool) (r : GcFn) : Prop :=
  (r ∈ w.registered → r ∈ w.seen fs onThread) ∧
    ∀ c ∈ w.seen fs onThread, c.addr = r.addr → c = r

def DelNamed (w : GcfnWorld) (fs : List GcfnFrame) (f : GcfnFrame) (_ : GcfnAns) : Prop :=
  match f with
  | .entering (.delgcfn onThread (.issued k)) =>
    ∀ r, w.made[k]? = some r → NamedBy w fs (onThread && runsOnThread fs) r
  | _ => True

variable {w : GcfnWorld} {fs : List GcfnFrame} {f : GcfnFrame} {r c : GcFn}

theorem netGcthreadDel_exact_iff {s : NetSocket} {rest : List GcFn}
    (hdistinct : ((s.stack ++ rest).map (·.addr)).Nodup)
    (hclosed : s.gcThread = false → s.stack ++ rest = []) :
    ((netGcthreadDel s (.ptr r.addr)).2.2 = .bool (r ∈ s.stack ++ rest) ∧
      (netGcthreadDel s (.ptr r.addr)).1.stack = s.stack.erase r ∧ rest.erase r = rest) ↔
    (r ∈ s.stack ++ rest → r ∈ s.stack) ∧ ∀ c ∈ s.stack, c.addr = r.addr → c = r := by
  cases hthread : s.gcThread with
  | false =>
    have hnil := hclosed hthread
    obtain ⟨hstack, hrest⟩ := List.append_eq_nil_iff.mp hnil
    simp [netGcthreadDel, hthread, hstack, hrest]
  | true =>
    cases hfind : s.stack.find? (fun c => c.addr == r.addr) with
    | none =>
      have hout : ∀ c ∈ s.stack, c.addr ≠ r.addr := by simpa using hfind
      have hr : r ∉ s.stack := fun hmem => hout r hmem rfl
      simp only [netGcthreadDel, hthread, hfind, Reply.bool.injEq, eq_comm (a := false),
        decide_eq_false_iff_not, List.erase_eq_self_iff]
      constructor
      · rintro ⟨hnone, -, -⟩
        exact ⟨fun hmem => absurd hmem hnone, fun c hc haddr => absurd haddr (hout c hc)⟩
      · rintro ⟨hseen, -⟩
        have hnone : r ∉ s.stack ++ rest := fun hmem => hr (hseen hmem)
        exact ⟨hnone, (List.erase_of_not_mem hr).symm,
          fun hrest => hnone (List.mem_append_right _ hrest)⟩
    | some c =>
      have hc : c ∈ s.stack := List.mem_of_find?_eq_some hfind
      have haddr : c.addr = r.addr := by simpa using List.find?_some hfind
      simp only [netGcthreadDel, hthread, hfind, eraseP_eq_erase_of_find hfind, Reply.bool.injEq,
        eq_comm (a := true), decide_eq_true_eq, List.erase_eq_self_iff]
      constructor
      · rintro ⟨hmem, -, hrest⟩
        have hr : r ∈ s.stack := (List.mem_append.mp hmem).resolve_right hrest
        exact ⟨fun _ => hr, fun d hd hsame =>
          List.inj_on_of_nodup_map hdistinct (List.mem_append_left _ hd) hmem hsame⟩
      · rintro ⟨-, hnamed⟩
        obtain rfl : c = r := hnamed c hc haddr
        refine ⟨List.mem_append_left _ hc, rfl, fun hrest => ?_⟩
        exact List.disjoint_of_nodup_append (hdistinct.of_map _) hc hrest

theorem delOnThread_ptr (h : HeapInv w (f :: fs)) (hr : r ∈ w.made) :
    w.delOnThread (.ptr r.addr) = .bool false := by
  obtain ⟨hsock, hthread⟩ := h.apart r (.inr hr)
  unfold GcfnWorld.delOnThread netGcthreadDel
  cases w.sock.gcThread <;> simp [hsock, hthread]

theorem delExact_iff (h : HeapInv w (f :: fs)) (hr : r ∈ w.made) (onThread : Bool) :
    DelExact w fs onThread r ↔ NamedBy w fs onThread r := by
  have hdistinct := h.registered_nodup
  unfold DelExact NamedBy GcfnWorld.delStep GcfnWorld.seen
  cases onThread with
  | true =>
    -- the call sees its own frame only
    simp only [if_true, delOnThread_ptr h hr, Reply.bool.injEq, eq_comm (a := false),
      decide_eq_false_iff_not, List.not_mem_nil, IsEmpty.forall_iff, implies_true, and_true]
    constructor
    · exact fun hlaw => hlaw.1
    · intro hnone
      exact ⟨hnone, (List.erase_of_not_mem fun hc => hnone (List.mem_append_left _ hc)).symm,
        (List.erase_of_not_mem fun hc => hnone (List.mem_append_right _ hc)).symm⟩
  | false =>
    unfold GcfnWorld.frame
    rw [if_neg Bool.false_ne_true, if_neg Bool.false_ne_true]
    -- the registrations in the frame that runs come first, then those below it
    cases hrun : threadRuns fs with
    | true =>
      have hswap : List.Perm (w.inner ++ w.sock.stack) w.registered := List.perm_append_comm
      have hiff := @netGcthreadDel_exact_iff r { w.sock with stack := w.inner } w.sock.stack
        ((hswap.map _).nodup_iff.mpr hdistinct)
        fun hclosed => List.perm_nil.mp (h.closed hclosed ▸ hswap)
      simp only [hswap.mem_iff] at hiff
      simp only [if_true]
      rw [← hiff]
      exact and_congr_right' (and_comm.trans (and_congr_right' eq_comm))
    | false =>
      have hiff := @netGcthreadDel_exact_iff r w.sock w.inner hdistinct h.closed
      simp only [Bool.false_eq_true, if_false]
      exact (and_congr_right' (and_congr_right' eq_comm)).trans hiff

theorem netGcthreadDel_address {s : NetSocket} {handle : Handle}
    (h : (netGcthreadDel s handle).2.1 = some c) : handle = .ptr c.addr := by
  unfold netGcthreadDel at h
  split at h
  all_goals try cases h
  next addr hthread =>
    split at h
    · next d hfind =>
      cases h
      rw [show c.addr = addr by simpa using List.find?_some hfind]
    · cases h

theorem delStep_other (h : HeapInv w (f :: fs)) (onThread : Bool) {handle : Handle}
    (hother : ∀ r ∈ w.made, handle ≠ .ptr r.addr) : (w.delStep fs onThread handle).1 = w := by
  have hnone : ∀ s : NetSocket, (∀ c ∈ s.stack, c ∈ w.registered) →
      (netGcthreadDel s handle).1 = s := by
    intro s hs
    apply netGcthreadDel_refused
    by_contra hsome
    obtain ⟨c, hc⟩ := Option.ne_none_iff_exists'.mp hsome
    exact hother c (h.made c (hs c (netGcthreadDel_removed hc).2.1)) (netGcthreadDel_address hc)
  unfold GcfnWorld.delStep
  split
  · rfl
  split
  · simp only [hnone { w.sock with stack := w.inner } fun c hc => List.mem_append_right _ hc]
  · simp only [hnone w.sock fun c hc => List.mem_append_left _ hc]

/-- A run obeys the law exactly when every handle in it is used while it names its registration. -/
theorem delgcfn_exact_iff (lua51 : Bool) (fd sockAddr threadAddr : Nat) (heap : List Nat)
    (calls : List (ReentrantLabel GcfnMethod GcfnForeign GcfnAns)) :
    Along (gcfnCalls lua51).step (Reentrant.Acts DelLaw)
        (gcfnWorldNew fd sockAddr threadAddr heap, []) calls ↔
      Along (gcfnCalls lua51).step (Reentrant.Acts DelNamed)
        (gcfnWorldNew fd sockAddr threadAddr heap, []) calls := by
  apply Reentrant.acts_congr (heapInv_kept lua51)
  · intro w fs f a h
    cases f with
    | entering m =>
      cases m with
      | delgcfn onThread arg =>
        cases arg with
        | issued k =>
          apply forall_congr'
          intro r
          apply forall_congr'
          intro hr
          exact delExact_iff h (List.mem_of_getElem? hr) _
        | given handle => exact iff_of_true (delStep_other h _) trivial
      | _ => exact Iff.rfl
    | _ => exact Iff.rfl
  · exact HeapInv.new fd sockAddr threadAddr heap

/-- A callback is registered and deleted, its closure is collected, and the next closure is put
where it was: the old handle then deletes the new registration. -/
def staleHandleRun : List (ReentrantLabel GcfnMethod GcfnForeign GcfnAns) :=
  [.call (.addgcfn false [.nil, .function]), .act {}, .act { hint := 3 }, .act {},
    .call (.delgcfn false (.issued 0)), .act {}, .foreign (.collect []),
    .call (.addgcfn false [.nil, .function]), .act {}, .act { hint := 3 }, .act {},
    .call (.delgcfn false (.issued 0)), .act {}]

theorem delgcfn_staleHandle :
    ¬ Along (gcfnCalls false).step (Reentrant.Acts DelLaw) (gcfnWorldNew 3 1 2 [], [])
      staleHandleRun := by
  intro h
  have hlaw := h.2.2.2.2.2.2.2.2.2.2.2.2.1 ⟨0, 3, false⟩ rfl
  exact absurd hlaw.1 (by decide)

end LuaNet.Socket
