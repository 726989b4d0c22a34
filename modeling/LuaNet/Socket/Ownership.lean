import LuaNet.Socket.Callbacks

/-! Ownership of descriptors. As long as no callback unwraps or collects a socket that a close or
an unwrap is draining, every descriptor has one owner, the library closes it once, and what
`unwrap` has returned stays with the caller. The drain keeps a copy of the descriptor, and the
guard against such calls looks at a gc thread that the drain has already detached. -/

namespace LuaNet.Socket

open LuaNet.Lib

def fdMove : Event → Option (Move Int Holder)
  | .fd m => some m
  | _ => none

def World.Holds (w : World) : Holder → Int → Prop
  | .socket k, fd => (w.socks k).fd = fd
  | .acceptfd i, fd => w.ctxs i = fd
  | .call, _ => False
  | .caller, fd => w.caller fd = true

def LibCloses (fd : Int) (e : Event) : Prop := ∃ h, h ≠ .caller ∧ e = .fd ⟨fd, some h, none⟩

def Unwraps (fd : Int) (e : Event) : Prop :=
  ∃ k, e = .fd ⟨fd, some (.socket k), some .caller⟩

def Opens (fd : Int) (e : Event) : Prop := ∃ dst, e = .fd ⟨fd, none, dst⟩

def LeavesCaller (fd : Int) (e : Event) : Prop := ∃ dst, e = .fd ⟨fd, some .caller, dst⟩

/-- Linear ownership: no descriptor has two holders, the library does not close one again before
the kernel has opened it anew, and neither closes nor returns one that `unwrap` has returned
before the caller has given it away. -/
structure FdLinear (w : World) (es : List Event) : Prop where
  owner : ∀ h h' fd, 0 ≤ fd → w.Holds h fd → w.Holds h' fd → h = h'
  closed : ∀ fd, Separated (LibCloses fd) (LibCloses fd) (Opens fd) es
  unwrapped : ∀ fd,
    Separated (Unwraps fd) (fun e => LibCloses fd e ∨ Unwraps fd e) (LeavesCaller fd) es

def World.Unpinned (w : World) (k : Nat) : Prop := ∀ f ∈ w.frames, f.sock = k → f.op = .gc

/-- The step does not unwrap or collect a socket that a close or an unwrap is draining. -/
def Undisturbed (w : World) : Label → Prop
  | .lua (.unwrap k _) => w.luaRuns = true → (w.socks k).usable = true → w.Unpinned k
  | .lua (.gc k) => w.luaRuns = true → (w.socks k).metatable = true → w.Unpinned k
  | _ => True

def World.Vacant (w : World) : Option Holder → Prop
  | some (.socket k) => k < w.nextSock ∧ (w.socks k).fd = -1
  | some (.acceptfd i) => i < w.nextCtx ∧ w.ctxs i = -1
  | _ => True

/-- Holders are as the history says; a drain that will close or return the descriptor it copied
still finds it in its socket. -/
structure Owned (w : World) (es : List Event) : Prop where
  holds : ∀ h fd, h ≠ .call → 0 ≤ fd → (w.Holds h fd ↔ ownerOf fdMove fd es = some h)
  kernel : ∀ fd, w.openFds fd = true ↔ ownerOf fdMove fd es ≠ none
  range : ∀ k, (w.socks k).fd = -1 ∨ 0 ≤ (w.socks k).fd
  rangeCtx : ∀ i, w.ctxs i = -1 ∨ 0 ≤ w.ctxs i
  rangeCaller : ∀ fd, w.caller fd = true → 0 ≤ fd
  unmade : ∀ k, w.nextSock ≤ k → (w.socks k).fd = -1
  unmadeCtx : ∀ i, w.nextCtx ≤ i → w.ctxs i = -1
  lawful : Lawful fdMove es
  pinned : ∀ f ∈ w.frames, f.op ≠ .gc → (w.socks f.sock).fd = f.fd
  closing : ∀ f ∈ w.frames, ∀ b, f.op = .close b → f.fd ≠ -1

variable {w : World} {es : List Event}

theorem place_iff {D S : Prop} [Decidable D] [Decidable S] {x fd fd' : Int} (hS : S → x = fd)
    (hD : D → x = -1) (hfd : 0 ≤ fd') :
    (if D then fd else if S then -1 else x) = fd' ↔
      (D ∧ fd = fd') ∨ ¬(S ∧ fd = fd') ∧ x = fd' := by
  by_cases hd : D
  · have hx := hD hd
    simp only [hd, if_true, true_and]
    omega
  · by_cases hs : S
    · have hx := hS hs
      simp only [hd, hs, if_true, if_false, true_and, false_and, false_or]
      omega
    · simp only [hd, hs, if_false, false_and, false_or, not_false_eq_true, true_and]

theorem hand_holds {fd fd' : Int} {src dst : Option Holder} {h : Holder} (hcall : h ≠ .call)
    (hsrc : src = some h → w.Holds h fd) (hdst : w.Vacant dst) (hfd : 0 ≤ fd') :
    (w.hand fd src dst).1.Holds h fd' ↔
      (dst = some h ∧ fd = fd') ∨ ¬(src = some h ∧ fd = fd') ∧ w.Holds h fd' := by
  cases h with
  | call => exact absurd rfl hcall
  | socket k =>
    show ((w.hand fd src dst).1.socks k).fd = fd' ↔ _ ∨ _ ∧ (w.socks k).fd = fd'
    rw [hand_sock_fd]
    exact place_iff hsrc (fun hd => (hd ▸ hdst : w.Vacant (some (.socket k))).2) hfd
  | acceptfd i =>
    show (w.hand fd src dst).1.ctxs i = fd' ↔ _ ∨ _ ∧ w.ctxs i = fd'
    rw [hand_ctxs]
    exact place_iff hsrc (fun hd => (hd ▸ hdst : w.Vacant (some (.acceptfd i))).2) hfd
  | caller => exact hand_caller fd'

theorem ownerOf_hand (es : List Event) (fd fd' : Int) (src dst : Option Holder) :
    ownerOf fdMove fd' (es ++ [.fd ⟨fd, src, dst⟩]) =
      if fd = fd' then dst else ownerOf fdMove fd' es := by
  have hmove : fdMove (.fd ⟨fd, src, dst⟩) = some ⟨fd, src, dst⟩ := rfl
  rw [ownerOf_snoc]
  split
  · next heq =>
    subst heq
    exact ownerNext_of_eq hmove
  · next hne => exact ownerNext_of_ne hmove hne

theorem Owned.hand_holder (h : Owned w es) {fd fd' : Int} {src dst : Option Holder} {g : Holder}
    (hfd : 0 ≤ fd) (hsrc : ownerOf fdMove fd es = src) (hdst : w.Vacant dst)
    (hg : g ≠ .call) (hfd' : 0 ≤ fd') :
    (w.hand fd src dst).1.Holds g fd' ↔
      ownerOf fdMove fd' (es ++ [.fd ⟨fd, src, dst⟩]) = some g := by
  have hheld : src = some g → w.Holds g fd := fun heq =>
    (h.holds g fd hg hfd).mpr (hsrc.trans heq)
  rw [ownerOf_hand, hand_holds hg hheld hdst hfd', h.holds g fd' hg hfd']
  by_cases heq : fd = fd'
  · subst heq
    rw [if_pos rfl, hsrc]
    refine ⟨?_, fun hin => .inl ⟨hin, rfl⟩⟩
    rintro (⟨hin, -⟩ | ⟨hnot, hin⟩)
    · exact hin
    · exact absurd ⟨hin, rfl⟩ hnot
  · simp only [heq, and_false, false_or, not_false_eq_true, true_and, if_false]

theorem Owned.hand_kernel (h : Owned w es) {fd : Int} {src dst : Option Holder}
    (hsrc : ownerOf fdMove fd es = src) (hne : src ≠ dst) (fd' : Int) :
    (w.hand fd src dst).1.openFds fd' = true ↔
      ownerOf fdMove fd' (es ++ [.fd ⟨fd, src, dst⟩]) ≠ none := by
  rw [ownerOf_hand, hand_openFds hne, h.kernel fd']
  by_cases heq : fd = fd'
  · subst heq
    rw [if_pos rfl, hsrc]
    by_cases hnone : dst = none
    · simp only [hnone, and_true, not_true_eq_false, false_and, or_false, ne_eq, iff_false]
      exact fun hs => hne (hs.trans hnone.symm)
    · simp only [hnone, and_true, not_false_eq_true, true_and, ne_eq, iff_true]
      exact em _
  · simp only [heq, and_false, false_or, not_false_eq_true, true_and, if_false]

theorem Owned.hand (h : Owned w es) {fd : Int} {src dst : Option Holder} (hfd : 0 ≤ fd)
    (hsrc : ownerOf fdMove fd es = src) (hne : src ≠ dst) (hdst : w.Vacant dst)
    (hpin : ∀ k, src = some (.socket k) ∨ dst = some (.socket k) → w.Unpinned k) :
    Owned (w.hand fd src dst).1 (es ++ [.fd ⟨fd, src, dst⟩]) := by
  have hmove : fdMove (.fd ⟨fd, src, dst⟩) = some ⟨fd, src, dst⟩ := rfl
  have hsocket : ∀ k, src ≠ some (.socket k) → dst ≠ some (.socket k) →
      ((w.hand fd src dst).1.socks k).fd = (w.socks k).fd := fun k hs hd => by
    rw [hand_sock_fd, if_neg hd, if_neg hs]
  refine ⟨fun g fd' hg hfd' => h.hand_holder hfd hsrc hdst hg hfd', h.hand_kernel hsrc hne,
    fun k => ?_, fun i => ?_, fun fd' hc => ?_, fun k hk => ?_, fun i hi => ?_,
    h.lawful.snoc_move hmove hsrc, fun f hf hop => ?_, fun f hf => ?_⟩
  · rw [hand_sock_fd]
    split_ifs
    · exact .inr hfd
    · exact .inl rfl
    · exact h.range k
  · rw [hand_ctxs]
    split_ifs
    · exact .inr hfd
    · exact .inl rfl
    · exact h.rangeCtx i
  · rcases (hand_caller fd').mp hc with ⟨-, heq⟩ | ⟨-, hc'⟩
    · exact heq ▸ hfd
    · exact h.rangeCaller fd' hc'
  · rw [hand_nextSock] at hk
    rw [hand_sock_fd]
    split_ifs with hd
    · exact absurd (hd ▸ hdst : w.Vacant (some (.socket k))).1 (Nat.not_lt.mpr hk)
    · rfl
    · exact h.unmade k hk
  · rw [hand_nextCtx] at hi
    rw [hand_ctxs]
    split_ifs with hd
    · exact absurd (hd ▸ hdst : w.Vacant (some (.acceptfd i))).1 (Nat.not_lt.mpr hi)
    · rfl
    · exact h.unmadeCtx i hi
  · -- a drain in progress pins its descriptor, and neither end of the hand-over is pinned
    rw [hand_frames] at hf
    rw [hsocket f.sock (fun hs => hop (hpin _ (.inl hs) f hf rfl))
      fun hd => hop (hpin _ (.inr hd) f hf rfl)]
    exact h.pinned f hf hop
  · rw [hand_frames] at hf
    exact h.closing f hf

theorem Owned.same (h : Owned w es) {w' : World} {fs : List Event}
    (hsocks : ∀ k, (w'.socks k).fd = (w.socks k).fd) (hctxs : w'.ctxs = w.ctxs)
    (hcaller : w'.caller = w.caller) (hopen : w'.openFds = w.openFds)
    (hsock : w.nextSock ≤ w'.nextSock) (hctx : w.nextCtx ≤ w'.nextCtx)
    (hframes : ∀ f ∈ w'.frames,
      (∃ g ∈ w.frames, g.op = f.op ∧ g.sock = f.sock ∧ g.fd = f.fd) ∨
        (w.socks f.sock).fd = f.fd ∧ ∀ b, f.op = .close b → f.fd ≠ -1)
    (hfs : ∀ e ∈ fs, fdMove e = none) : Owned w' (es ++ fs) := by
  have hsame : ∀ g fd, w'.Holds g fd ↔ w.Holds g fd := by
    intro g fd
    cases g with
    | call => exact Iff.rfl
    | socket k => exact iff_of_eq (congrArg (· = fd) (hsocks k))
    | acceptfd i => exact iff_of_eq (congrArg (· = fd) (congrFun hctxs i))
    | caller => exact iff_of_eq (congrArg (· = true) (congrFun hcaller fd))
  refine ⟨fun g fd hg hfd => ?_, fun fd => ?_, fun k => ?_, fun i => ?_, fun fd => ?_,
    fun k hk => ?_, fun i hi => ?_, h.lawful.append_of_none hfs, fun f hf hop => ?_,
    fun f hf b hop => ?_⟩
  · rw [hsame, ownerOf_append_of_none hfs]
    exact h.holds g fd hg hfd
  · rw [hopen, ownerOf_append_of_none hfs]
    exact h.kernel fd
  · rw [hsocks]
    exact h.range k
  · rw [hctxs]
    exact h.rangeCtx i
  · rw [hcaller]
    exact h.rangeCaller fd
  · rw [hsocks]
    exact h.unmade k (Nat.le_trans hsock hk)
  · rw [hctxs]
    exact h.unmadeCtx i (Nat.le_trans hctx hi)
  · rw [hsocks]
    rcases hframes f hf with ⟨g, hg, hgop, hgs, hgfd⟩ | ⟨hcopied, -⟩
    · rw [← hgs, ← hgfd]
      exact h.pinned g hg (hgop ▸ hop)
    · exact hcopied
  · rcases hframes f hf with ⟨g, hg, hgop, -, hgfd⟩ | ⟨-, hclose⟩
    · rw [← hgfd]
      exact h.closing g hg b (hgop.trans hop)
    · exact hclose b hop

theorem Owned.skip (h : Owned w es) : Owned w (es ++ []) := (List.append_nil es).symm ▸ h

theorem Owned.frame (h : Owned w es) {w' : World} {fs : List Event}
    (hsocks : ∀ k, (w'.socks k).fd = (w.socks k).fd) (hctxs : w'.ctxs = w.ctxs)
    (hcaller : w'.caller = w.caller) (hopen : w'.openFds = w.openFds)
    (hsock : w.nextSock ≤ w'.nextSock) (hctx : w.nextCtx ≤ w'.nextCtx)
    (hframes : w'.frames = w.frames) (hfs : ∀ e ∈ fs, fdMove e = none) : Owned w' (es ++ fs) :=
  h.same hsocks hctxs hcaller hopen hsock hctx
    (fun f hf => .inl ⟨f, hframes ▸ hf, rfl, rfl, rfl⟩) hfs

theorem Owned.reply (h : Owned w es) (r : Reply) : Owned w (es ++ [.reply r]) :=
  h.frame (fun _ => rfl) rfl rfl rfl (Nat.le_refl _) (Nat.le_refl _) rfl
    fun _ he => List.mem_singleton.mp he ▸ rfl

theorem Owned.setSock (h : Owned w es) {k : Nat} {s : NetSocket} (hs : s.fd = (w.socks k).fd) :
    Owned (w.setSock k s) es := by
  have hfds : ∀ j, ((w.setSock k s).socks j).fd = (w.socks j).fd := by
    intro j
    by_cases hj : j = k
    · subst hj
      rw [setSock_socks_self, hs]
    · rw [setSock_socks_of_ne hj]
  have hset : Owned (w.setSock k s) (es ++ []) :=
    h.frame hfds rfl rfl rfl (Nat.le_refl _) (Nat.le_refl _) rfl nofun
  rwa [List.append_nil] at hset

theorem Owned.newSocket (h : Owned w es) (held : Bool) : Owned (newSocket w held) es := by
  have hset : Owned (w.setSock w.nextSock (netSocketNew held)) es :=
    h.setSock (h.unmade w.nextSock (Nat.le_refl _)).symm
  have hnext : Owned (Socket.newSocket w held) (es ++ []) :=
    hset.frame (fun _ => rfl) rfl rfl rfl (Nat.le_succ _) (Nat.le_refl _) rfl nofun
  rwa [List.append_nil] at hnext

theorem Owned.fresh (h : Owned w es) {fd : Int} (hfd : w.fresh fd = true) :
    ownerOf fdMove fd es = none := by
  simp only [World.fresh, Bool.and_eq_true, Bool.not_eq_true'] at hfd
  by_contra hne
  rw [(h.kernel fd).mpr hne] at hfd
  cases hfd.2

theorem Owned.viaCall (h : Owned w es) {fd : Int} (hfd : w.fresh fd = true)
    {dst : Option Holder} (hne : some .call ≠ dst) (hdst : ∀ v : World, v.Vacant dst)
    (hsock : ∀ k, dst ≠ some (.socket k)) :
    Owned (andThen (w.hand fd none (some .call)) fun w => w.hand fd (some .call) dst).1
      (es ++ (andThen (w.hand fd none (some .call)) fun w => w.hand fd (some .call) dst).2) := by
  have hgiven : Owned (w.hand fd none (some .call)).1 (es ++ [.fd ⟨fd, none, some .call⟩]) :=
    h.hand (fresh_nonneg hfd) (h.fresh hfd) nofun trivial (by rintro k (hk | hk) <;> cases hk)
  refine andThen_history hgiven fun hmid => hmid.hand (fresh_nonneg hfd) ?_ hne (hdst _) ?_
  · exact (ownerOf_snoc ..).trans (ownerNext_of_eq rfl)
  · rintro k (hk | hk)
    · cases hk
    · exact absurd hk (hsock k)

structure Sound (w : World) (es : List Event) : Prop where
  drains : DrainInv w es
  owned : Owned w es

theorem DrainInv.sock_lt (h : DrainInv w es) {f : Frame} (hf : f ∈ w.frames) :
    f.sock < w.nextSock := by
  by_contra hnot
  exact (h.sock f.sock).notBegun (.inr hnot) ((h.sock f.sock).frame (List.mem_map_of_mem hf)).1

theorem DrainInv.unpinned_new (h : DrainInv w es) : w.Unpinned w.nextSock := fun _ hf heq =>
  absurd (h.sock_lt hf) (heq ▸ Nat.lt_irrefl _)

theorem Sound.skip (h : Sound w es) : Sound w (es ++ []) := ⟨h.drains.skip, h.owned.skip⟩

theorem Sound.reply (h : Sound w es) (r : Reply) : Sound w (es ++ [.reply r]) :=
  ⟨h.drains.reply r, h.owned.reply r⟩

theorem Sound.newSocket (h : Sound w es) : Sound (newSocket w false) es :=
  ⟨newSocket_inv h.drains, h.owned.newSocket false⟩

theorem Sound.newSocket_hand (h : Sound w es) {held : Bool} {fd : Int} {src : Option Holder}
    (hsrc : ∀ j, src ≠ some (.socket j)) (hfd : 0 ≤ fd)
    (howner : ownerOf fdMove fd es = src) :
    Sound ((Socket.newSocket w held).hand fd src (some (.socket w.nextSock))).1
      (es ++ ((Socket.newSocket w held).hand fd src (some (.socket w.nextSock))).2) := by
  have hne : fd ≠ -1 := by omega
  refine ⟨newSocket_hand_inv h.drains hsrc hne, ?_⟩
  refine (h.owned.newSocket held).hand hfd howner (hsrc _) ⟨Nat.lt_succ_self _, ?_⟩ ?_
  · rw [newSocket_socks_self]
    rfl
  · rintro k (hk | hk)
    · exact absurd hk (hsrc k)
    · cases hk
      exact h.drains.unpinned_new

theorem openedAndClosed_sound (h : Sound w es) {fd : Int} (hfd : w.fresh fd = true) :
    Sound (openedAndClosed w fd).1 (es ++ (openedAndClosed w fd).2) :=
  ⟨openedAndClosed_inv h.drains fd, h.owned.viaCall hfd nofun (fun _ => trivial) nofun⟩

theorem obtainSocket_sound (h : Sound w es) (held : Bool) (a : Attempt) :
    Sound (obtainSocket w held a).1 (es ++ (obtainSocket w held a).2) := by
  unfold obtainSocket
  split
  · rw [List.append_nil]
    exact h.newSocket
  · split
    · next hfresh => exact openedAndClosed_sound h.newSocket hfresh
    · exact h.skip
  · split
    · next hfresh => exact h.newSocket_hand nofun (fresh_nonneg hfresh) (h.owned.fresh hfresh)
    · exact h.skip

theorem newNetSocket_sound (h : Sound w es) (as : List Attempt) :
    Sound (newNetSocket w as).1 (es ++ (newNetSocket w as).2) := by
  induction as generalizing w es with
  | nil => exact h.skip
  | cons a as ih =>
    refine andThen_history (obtainSocket_sound h true a) fun ht => ?_
    split
    · exact ht.skip
    · exact ih ht

theorem acceptfdLua_sound (h : Sound w es) (k : Nat) (withAddr : Bool) (a : Attempt) :
    Sound (acceptfdLua w k withAddr a).1 (es ++ (acceptfdLua w k withAddr a).2) := by
  refine ⟨acceptfdLua_inv h.drains k withAddr a, ?_⟩
  unfold acceptfdLua
  split
  · exact h.owned.skip
  split
  · exact h.owned.skip
  · split
    · next hfresh => exact (openedAndClosed_sound h hfresh).owned
    · exact h.owned.skip
  · split
    · exact h.owned.skip
    · next fd hfresh =>
      simp only [Bool.not_eq_true', Bool.not_eq_false] at hfresh
      split
      · have hnext : Owned { w with nextCtx := w.nextCtx + 1 } (es ++ []) :=
          h.owned.frame (fun _ => rfl) rfl rfl rfl (Nat.le_refl _) (Nat.le_succ _) rfl nofun
        rw [List.append_nil] at hnext
        exact hnext.hand (fresh_nonneg hfresh) (h.owned.fresh hfresh) nofun
          ⟨Nat.lt_succ_self _, h.owned.unmadeCtx _ (Nat.le_refl _)⟩
          (by rintro k (hk | hk) <;> cases hk)
      · exact h.owned.viaCall hfresh nofun (fun _ => trivial) nofun

theorem acceptfdEnd_sound (h : Sound w es) (i : Nat) (raised : Bool) :
    Sound (acceptfdEnd w i raised).1 (es ++ (acceptfdEnd w i raised).2) := by
  refine ⟨acceptfdEnd_inv h.drains i raised, ?_⟩
  unfold acceptfdEnd
  split
  · exact h.owned.skip
  · next hne =>
    have hfd : 0 ≤ w.ctxs i := (h.owned.rangeCtx i).resolve_left hne
    have howner := (h.owned.holds (.acceptfd i) _ nofun hfd).mp rfl
    cases raised
    · exact h.owned.hand hfd howner nofun trivial (by rintro k (hk | hk) <;> cases hk)
    · exact h.owned.hand hfd howner nofun trivial (by rintro k (hk | hk) <;> cases hk)

theorem pairLua_sound (h : Sound w es) (a : PairAttempt) :
    Sound (pairLua w a).1 (es ++ (pairLua w a).2) := by
  unfold pairLua
  split
  · rw [List.append_nil]
    exact h.newSocket.newSocket
  · split
    · next fd fd' hfresh =>
      simp only [Bool.and_eq_true, bne_iff_ne] at hfresh
      refine andThen_history (openedAndClosed_sound h.newSocket.newSocket hfresh.1.1) fun ht => ?_
      refine openedAndClosed_sound ht ?_
      rw [openedAndClosed, andThen, hand_fresh_of_ne hfresh.2, hand_fresh_of_ne hfresh.2]
      exact hfresh.1.2
    · exact h.skip
  · split
    · next fd fd' hfresh =>
      simp only [Bool.and_eq_true, bne_iff_ne] at hfresh
      rw [pairLua_made_eq]
      have hkernel : ∀ j, (none : Option Holder) ≠ some (.socket j) :=
        fun j => (Option.some_ne_none (Holder.socket j)).symm
      refine andThen_history
        (h.newSocket_hand hkernel (fresh_nonneg hfresh.1.1) (h.owned.fresh hfresh.1.1)) fun ht => ?_
      refine ht.newSocket_hand hkernel (fresh_nonneg hfresh.1.2) (ht.owned.fresh ?_)
      rw [hand_fresh_of_ne hfresh.2]
      exact hfresh.1.2
    · exact h.skip

theorem wrapLua_sound (h : Sound w es) (fd : Int) (checks : Bool) :
    Sound (wrapLua w fd checks).1 (es ++ (wrapLua w fd checks).2) := by
  unfold wrapLua
  split
  · exact h.reply _
  · next hrange =>
    simp only [Bool.or_eq_true, decide_eq_true_eq, not_or, Int.not_lt] at hrange
    split
    · rw [List.append_nil]
      exact h.newSocket
    split
    · exact h.skip
    · next hcaller =>
      simp only [Bool.not_eq_true', Bool.not_eq_false] at hcaller
      exact h.newSocket_hand nofun hrange.1
        ((h.owned.holds .caller fd nofun hrange.1).mp hcaller)

theorem netGcthreadAdd_fd (s : NetSocket) (id : Nat) (args : GcFnArgs) :
    (netGcthreadAdd s id args).1.fd = s.fd := by
  cases hadd : (netGcthreadAdd s id args).2.1 with
  | none => rw [netGcthreadAdd_refused hadd]
  | some c => rw [(netGcthreadAdd_added hadd).2.2]

theorem netGcthreadDel_fd (s : NetSocket) (handle : Handle) :
    (netGcthreadDel s handle).1.fd = s.fd := by
  cases hdel : (netGcthreadDel s handle).2.1 with
  | none => rw [netGcthreadDel_refused hdel]
  | some c => rw [(netGcthreadDel_removed hdel).2.2]

theorem edit_fdMove {o : Option GcFn} {edit : GcFn → Event} (hedit : ∀ c, fdMove (edit c) = none)
    (r : Reply) : ∀ e ∈ (o.map edit).toList ++ [.reply r], fdMove e = none := by
  intro e he
  rcases List.mem_append.mp he with he | he
  · obtain ⟨c, -, rfl⟩ := Option.map_eq_some_iff.mp (Option.mem_toList.mp he)
    exact hedit c
  · rw [List.mem_singleton.mp he]
    rfl

theorem addgcfnLua_sound (h : Sound w es) (k : Nat) (args : GcFnArgs) :
    Sound (addgcfnLua w k args).1 (es ++ (addgcfnLua w k args).2) := by
  refine ⟨addgcfnLua_inv h.drains k args, ?_⟩
  unfold addgcfnLua
  split
  · exact h.owned.skip
  · exact (h.owned.setSock (netGcthreadAdd_fd (w.socks k) w.nextFn args)).frame (fun _ => rfl)
      rfl rfl rfl (Nat.le_refl _) (Nat.le_refl _) rfl (edit_fdMove (fun _ => rfl) _)

theorem delgcfnLua_sound (h : Sound w es) (k : Nat) (handle : Handle) :
    Sound (delgcfnLua w k handle).1 (es ++ (delgcfnLua w k handle).2) := by
  refine ⟨delgcfnLua_inv h.drains k handle, ?_⟩
  unfold delgcfnLua
  split
  · exact h.owned.skip
  · exact (h.owned.setSock (netGcthreadDel_fd (w.socks k) handle)).frame (fun _ => rfl)
      rfl rfl rfl (Nat.le_refl _) (Nat.le_refl _) rfl (edit_fdMove (fun _ => rfl) _)

theorem netGcthreadClose_sound (h : Sound w es) {k : Nat} (hk : (w.socks k).gcThread = true)
    {op : Op} (hclose : ∀ b, op = .close b → (w.socks k).fd ≠ -1) :
    Sound (netGcthreadClose w k op).1 (es ++ (netGcthreadClose w k op).2) := by
  refine ⟨netGcthreadClose_inv h.drains hk op, ?_⟩
  have hset : Owned (w.setSock k { w.socks k with gcThread := false }) es := h.owned.setSock rfl
  refine hset.same (fun _ => rfl) rfl rfl rfl (Nat.le_refl _) (Nat.le_refl _) (fun f hf => ?_)
    fun e he => ?_
  · rcases List.mem_cons.mp hf with rfl | hf
    · refine .inr ⟨?_, hclose⟩
      dsimp only
      rw [setSock_socks_self]
    · exact .inl ⟨f, hf, rfl, rfl, rfl⟩
  · rw [List.mem_singleton.mp he]
    rfl

theorem Sound.hand_src (h : Sound w es) {k : Nat} {fd : Int} {dst : Option Holder}
    (hdst : dst = none ∨ dst = some .caller) (hthread : (w.socks k).gcThread = false)
    (hfd : (w.socks k).fd = fd) (hopen : fd ≠ -1) (hpin : w.Unpinned k) :
    Sound (w.hand fd (some (.socket k)) dst).1
      (es ++ (w.hand fd (some (.socket k)) dst).2) := by
  have hnonneg : 0 ≤ fd := hfd ▸ (h.owned.range k).resolve_left (hfd ▸ hopen)
  have howner := (h.owned.holds (.socket k) fd nofun hnonneg).mp hfd
  have hpinned : ∀ j, some (Holder.socket k) = some (.socket j) ∨ dst = some (.socket j) →
      w.Unpinned j := by
    rintro j (hj | hj)
    · cases hj
      exact hpin
    · rcases hdst with rfl | rfl <;> cases hj
  refine ⟨h.drains.hand_src (fun j hj => ?_) hthread, ?_⟩
  · rcases hdst with rfl | rfl <;> cases hj
  · rcases hdst with rfl | rfl
    · exact h.owned.hand hnonneg howner nofun trivial hpinned
    · exact h.owned.hand hnonneg howner nofun trivial hpinned

theorem unwrapEnd_sound (h : Sound w es) {k : Nat} {fd : Int}
    (hthread : (w.socks k).gcThread = false) (hfd : (w.socks k).fd = fd) (hpin : w.Unpinned k) :
    Sound (unwrapEnd w k fd).1 (es ++ (unwrapEnd w k fd).2) := by
  have hplain : Sound (w.setSock k { w.socks k with metatable := false }) es :=
    ⟨h.drains.setQuiet hthread hthread rfl fun hu => by simp [NetSocket.usable] at hu,
      h.owned.setSock rfl⟩
  refine ⟨unwrapEnd_inv h.drains hthread fd, ?_⟩
  unfold unwrapEnd
  dsimp only
  split
  · next hnone =>
    have hset : Owned ((w.setSock k { w.socks k with metatable := false }).setFd k (-1)) es := by
      refine hplain.owned.setSock ?_
      rw [setSock_socks_self]
      exact (hfd.trans hnone).symm
    exact hset.reply _
  · next hopen =>
    have hself := setSock_socks_self w k { w.socks k with metatable := false }
    refine andThen_history (I := Owned) (hplain.hand_src (.inr rfl) ?_ ?_ hopen hpin).owned
      fun ht => ht.reply _
    · rw [hself]
      exact hthread
    · rw [hself]
      exact hfd

theorem gcEnd_sound (h : Sound w es) {k : Nat} (hthread : (w.socks k).gcThread = false)
    (hpin : w.Unpinned k) : Sound (gcEnd w k).1 (es ++ (gcEnd w k).2) := by
  unfold gcEnd
  split
  · exact h.skip
  · next hopen => exact h.hand_src (.inl rfl) hthread rfl hopen hpin

theorem closeLua_sound (h : Sound w es) (k : Nat) (onGc withShutdown : Bool) :
    Sound (closeLua w k onGc withShutdown).1 (es ++ (closeLua w k onGc withShutdown).2) := by
  unfold closeLua
  split
  · exact h.skip
  split
  · exact h.reply _
  split
  · exact h.reply _
  · next hopen =>
    simp only [Bool.or_eq_true, decide_eq_true_eq, not_or, Bool.not_eq_true', Bool.not_eq_false]
      at hopen
    exact netGcthreadClose_sound h hopen.2 fun _ _ => hopen.1

theorem unwrapLua_sound (h : Sound w es) {k : Nat}
    (hpin : (w.socks k).usable = true → w.Unpinned k) (onGc : Bool) :
    Sound (unwrapLua w k onGc).1 (es ++ (unwrapLua w k onGc).2) := by
  unfold unwrapLua
  split
  · exact h.skip
  next husable =>
  simp only [Bool.not_eq_true', Bool.not_eq_false] at husable
  split
  · exact h.reply _
  split
  · next hk => exact netGcthreadClose_sound h hk nofun
  · next hk => exact unwrapEnd_sound h (Bool.eq_false_iff.mpr hk) rfl (hpin husable)

theorem gcLua_sound (h : Sound w es) {k : Nat}
    (hpin : (w.socks k).metatable = true → w.Unpinned k) :
    Sound (gcLua w k).1 (es ++ (gcLua w k).2) := by
  unfold gcLua
  split
  · exact h.skip
  next hmeta =>
  simp only [Bool.not_eq_true', Bool.not_eq_false] at hmeta
  split
  · next hk => exact netGcthreadClose_sound h hk nofun
  · next hk => exact gcEnd_sound h (Bool.eq_false_iff.mpr hk) (hpin hmeta)

theorem drainTick_sound (h : Sound w es) (sys : CloseSys) :
    Sound (drainTick w sys).1 (es ++ (drainTick w sys).2) := by
  have hdrains := drainTick_inv h.drains sys
  rcases drainTick_cases w sys with heq | ⟨f, fs, hframes, -, hturn⟩
  · rw [heq]
    exact h.skip
  have hmem : f ∈ w.frames := hframes ▸ List.mem_cons_self
  have hthread := h.drains.detached hmem
  rcases hturn with ⟨c, -, heq⟩ | ⟨hempty, heq⟩
  · refine ⟨hdrains, ?_⟩
    rw [heq]
    have hset : Owned (w.setSock f.sock
        { w.socks f.sock with stack := (w.socks f.sock).stack.dropLast }) es :=
      h.owned.setSock rfl
    refine hset.same (fun _ => rfl) rfl rfl rfl (Nat.le_refl _) (Nat.le_refl _) (fun g hg => ?_)
      fun e he => List.mem_singleton.mp he ▸ rfl
    rcases List.mem_cons.mp hg with rfl | hg
    · exact .inl ⟨f, hmem, rfl, rfl, rfl⟩
    · exact .inl ⟨g, hframes ▸ List.mem_cons_of_mem _ hg, rfl, rfl, rfl⟩
  · rw [heq]
    -- the frame is gone, and no other drain of its socket is in progress
    have hover : Sound { w with frames := fs } (es ++ [.drained f.sock]) := by
      refine ⟨drained_inv h.drains hframes hempty, ?_⟩
      exact h.owned.same (fun _ => rfl) rfl rfl rfl (Nat.le_refl _) (Nat.le_refl _)
        (fun g hg => .inl ⟨g, hframes ▸ List.mem_cons_of_mem _ hg, rfl, rfl, rfl⟩)
        fun e he => List.mem_singleton.mp he ▸ rfl
    have hpin : World.Unpinned { w with frames := fs } f.sock := by
      intro g hg hsock
      have halone := h.drains.alone
      rw [hframes] at halone
      exact absurd (hsock ▸ List.mem_map_of_mem hg) (List.nodup_cons.mp halone).1
    refine andThen_history (I := Sound) hover fun ht => ?_
    unfold drainEnd
    split
    · next withShutdown hop =>
      have hfd := h.owned.pinned f hmem (by rw [hop]; nofun)
      refine andThen_history (I := Sound)
        (ht.hand_src (.inl rfl) hthread hfd (h.owned.closing f hmem _ hop) hpin)
        fun hclosed => hclosed.reply _
    · next hop =>
      exact unwrapEnd_sound ht hthread (h.owned.pinned f hmem (by rw [hop]; nofun)) hpin
    · exact gcEnd_sound ht hthread hpin

theorem callbackEnd_sound (h : Sound w es) (raised : Bool) :
    Sound (callbackEnd w raised).1 (es ++ (callbackEnd w raised).2) := by
  refine ⟨callbackEnd_inv h.drains raised, ?_⟩
  rcases callbackEnd_cases w raised with heq | ⟨f, fs, phase, hframes, heq⟩ <;> rw [heq]
  · exact h.owned.skip
  · refine h.owned.same (fun _ => rfl) rfl rfl rfl (Nat.le_refl _) (Nat.le_refl _)
      (fun g hg => ?_) nofun
    rcases List.mem_cons.mp hg with rfl | hg
    · exact .inl ⟨f, hframes ▸ List.mem_cons_self, rfl, rfl, rfl⟩
    · exact .inl ⟨g, hframes ▸ List.mem_cons_of_mem _ hg, rfl, rfl, rfl⟩

theorem step_sound (w : World) (es : List Event) (l : Label) (hl : Undisturbed w l)
    (h : Sound w es) : Sound (step w l).1 (es ++ (step w l).2) := by
  cases l with
  | tick sys => exact drainTick_sound h sys
  | ret raised => exact callbackEnd_sound h raised
  | lua c =>
    unfold step
    dsimp only
    split
    · next hlua =>
      cases c with
      | create as => exact newNetSocket_sound h as
      | accept k a raised =>
        unfold call acceptLua
        dsimp only
        split
        · exact h.skip
        · exact obtainSocket_sound h _ a
      | acceptfd k withAddr a => exact acceptfdLua_sound h k withAddr a
      | acceptfdEnd i raised => exact acceptfdEnd_sound h i raised
      | pair a => exact pairLua_sound h a
      | wrap fd checks => exact wrapLua_sound h fd checks
      | dup k a =>
        unfold call dupLua
        dsimp only
        split
        · exact h.skip
        · exact obtainSocket_sound h _ a
      | addgcfn k args => exact addgcfnLua_sound h k args
      | delgcfn k handle => exact delgcfnLua_sound h k handle
      | close k onGc withShutdown => exact closeLua_sound h k onGc withShutdown
      | unwrap k onGc => exact unwrapLua_sound h (hl hlua) onGc
      | gc k => exact gcLua_sound h (hl hlua)
      | callerOpen fd =>
        unfold call
        dsimp only
        split
        · next hfresh =>
          exact ⟨h.drains.hand nofun nofun, h.owned.hand (fresh_nonneg hfresh)
            (h.owned.fresh hfresh) nofun trivial (by rintro k (hk | hk) <;> cases hk)⟩
        · exact h.skip
      | callerClose fd =>
        unfold call
        dsimp only
        split
        · next hcaller =>
          have hfd := h.owned.rangeCaller fd hcaller
          exact ⟨h.drains.hand nofun nofun, h.owned.hand hfd
            ((h.owned.holds .caller fd nofun hfd).mp hcaller) nofun trivial
            (by rintro k (hk | hk) <;> cases hk)⟩
        · exact h.skip
    · exact h.skip

theorem worldNew_sound : Sound worldNew [] := by
  refine ⟨worldNew_inv, fun g fd hg hfd => ?_, fun fd => ?_, fun _ => .inl rfl, fun _ => .inl rfl,
    nofun, fun _ _ => rfl, fun _ _ => rfl, Each.nil _, nofun, nofun⟩
  · have hnone : ownerOf fdMove fd [] ≠ some g := nofun
    refine iff_of_false ?_ hnone
    cases g with
    | call => exact absurd rfl hg
    | socket k =>
      rintro (rfl : (-1 : Int) = fd)
      exact absurd hfd (by decide)
    | acceptfd i =>
      rintro (rfl : (-1 : Int) = fd)
      exact absurd hfd (by decide)
    | caller => exact nofun
  · exact iff_of_false nofun fun hne => hne rfl

theorem fdMove_eq_some {e : Event} {m : Move Int Holder} (h : fdMove e = some m) : e = .fd m := by
  cases e with
  | fd n => exact congrArg Event.fd (Option.some.inj h)
  | _ => cases h

theorem Owned.linear (h : Owned w es) : FdLinear w es := by
  refine ⟨fun g g' fd hfd hg hg' => ?_, fun fd => ?_, fun fd => ?_⟩
  · have hcall : ∀ g : Holder, w.Holds g fd → g ≠ .call := by
      rintro g hg rfl
      exact hg
    have howner := (h.holds g fd (hcall g hg) hfd).mp hg
    have howner' := (h.holds g' fd (hcall g' hg') hfd).mp hg'
    exact Option.some.inj (howner.symm.trans howner')
  · have hsep := h.lawful.separated (d := fd) (x := none) (P := LibCloses fd) (Q := LibCloses fd)
      (by rintro e ⟨g, -, rfl⟩; exact ⟨_, rfl, rfl, rfl⟩)
      (by rintro e ⟨g, -, rfl⟩; exact ⟨_, rfl, rfl, nofun⟩)
    refine hsep.mono ?_
    rintro e ⟨⟨what, src, dst⟩, he, rfl, rfl⟩
    exact ⟨dst, fdMove_eq_some he⟩
  · have hsep := h.lawful.separated (d := fd) (x := some .caller) (P := Unwraps fd)
      (Q := fun e => LibCloses fd e ∨ Unwraps fd e)
      (by rintro e ⟨k, rfl⟩; exact ⟨_, rfl, rfl, rfl⟩) ?_
    · refine hsep.mono ?_
      rintro e ⟨⟨what, src, dst⟩, he, rfl, rfl⟩
      exact ⟨dst, fdMove_eq_some he⟩
    · rintro e (⟨g, hg, rfl⟩ | ⟨k, rfl⟩)
      · exact ⟨_, rfl, rfl, fun heq => hg (Option.some.inj heq)⟩
      · exact ⟨_, rfl, rfl, nofun⟩

/-- Ownership is linear in every run in which no callback unwraps or collects a socket that a
close or an unwrap is draining. -/
theorem fd_ownership (ls : List Label) (h : Along step Undisturbed worldNew ls) :
    FdLinear (runs step worldNew ls).1 (runs step worldNew ls).2 :=
  (runs_history_along step_sound worldNew_sound h).owned.linear

def unwrapAndWrap : List Label :=
  [.lua (.create [.made 3]), .lua (.unwrap 0 false), .tick ⟨none, none⟩, .lua (.wrap 3 true),
    .lua (.addgcfn 1 ⟨.nil, .function, 0, true, 10⟩), .lua (.close 1 false false),
    .tick ⟨none, none⟩, .lua (.close 1 true false), .ret true, .tick ⟨none, none⟩]

theorem fd_ownership_unwrapAndWrap :
    FdLinear (runs step worldNew unwrapAndWrap).1 (runs step worldNew unwrapAndWrap).2 :=
  fd_ownership unwrapAndWrap ⟨trivial, fun _ _ => nofun, trivial, trivial, trivial, trivial,
    trivial, trivial, trivial, trivial, trivial⟩

/-- A callback of a socket that is being closed calls `unwrap`: the caller gets the descriptor,
and the close goes on to close it. -/
def unwrapInClose : List Label :=
  [.lua (.create [.made 3]), .lua (.addgcfn 0 ⟨.nil, .function, 0, true, 10⟩),
    .lua (.close 0 false false), .tick ⟨none, none⟩, .lua (.unwrap 0 true), .ret false,
    .tick ⟨none, none⟩]

theorem unwrapInClose_closes :
    ¬∀ ls, FdLinear (runs step worldNew ls).1 (runs step worldNew ls).2 := by
  intro hall
  have hrun : (runs step worldNew unwrapInClose).2 =
      [.fd ⟨3, none, some (.socket 0)⟩, .added 0 ⟨0, 10, false⟩, .reply (.handle 10), .drain 0,
        .invoked 0 ⟨0, 10, false⟩] ++ .fd ⟨3, some (.socket 0), some .caller⟩ ::
          ([.reply (.fd 3), .drained 0] ++ .fd ⟨3, some (.socket 0), none⟩ ::
            [.reply (.bool true)]) := by decide
  obtain ⟨g, hg, hleaves⟩ := (hall unwrapInClose).unwrapped 3 _ _ _ _ _ hrun ⟨0, rfl⟩
    (.inl ⟨.socket 0, nofun, rfl⟩)
  obtain ⟨dst, rfl⟩ := hleaves
  simp at hg

end LuaNet.Socket
