import Mathlib.Data.List.Sigma
import LuaNet.Tls.Sendfile

/-! What `sendfile` hands over. A send that takes only a part and reports nothing leaves a rest,
and the next turn reads that rest from the file once more: from then on only an early end of the
call keeps the bytes in order. -/

namespace LuaNet.Tls

open LuaNet.Lib

variable {α : Type*}

def WriteRet.Reported (r : WriteRet) : Prop := r.err.isSome = true ∨ r.timeout = true

def SendfileRet.Reported (r : SendfileRet) : Prop := r.err.isSome = true ∨ r.timeout = true

def handedBytes (es : List (SendfileEvent α)) : List α :=
  es.flatMap fun e => match e with
    | .handed bs => bs
    | .close => []

def closes (es : List (SendfileEvent α)) : Nat :=
  es.countP fun e => match e with
    | .handed _ => false
    | .close => true

def readCount (size pos nread : Nat) : Pread → Nat
  | .failed _ => 0
  | .data n _ => min (min n nread) (size - pos)

/-- The sends after one that left a rest of `left` bytes in silence: until the call ends they
take no more than that rest. -/
def LeftoverSound (size bufsiz : Nat) : Nat → Nat → Nat → List SendTurn → Prop
  | _, _, _, [] => False
  | pos, remain, left, t :: ts =>
    (0 < remain ∧ readCount size pos (min remain bufsiz) t.pread = 0) ∨
      t.send.sent ≤ left ∧
        (t.send.Reported ∨
          LeftoverSound size bufsiz (pos + t.send.sent) (remain - t.send.sent)
            (left - t.send.sent) ts)

/-- The sends of a call that has handed over everything it has read: each one reports an error
or the timeout flag, or takes its whole string, until the first that leaves a rest. -/
def SendsSound (size bufsiz : Nat) : Nat → Nat → List SendTurn → Prop
  | _, _, [] => False
  | pos, remain, t :: ts =>
    let k := readCount size pos (min remain bufsiz) t.pread
    k = 0 ∨ t.send.Reported ∨
      if k ≤ t.send.sent then k = remain ∨ SendsSound size bufsiz (pos + k) (remain - k) ts
      else
        LeftoverSound size bufsiz (pos + t.send.sent) (remain - t.send.sent) (k - t.send.sent) ts

section Rest

/-- What the rest of a call hands over from `pos` on, of the `remain` bytes still wanted. -/
structure RestExact (file : List α) (pos remain : Nat) (bs : List α) (ret : SendfileRet) :
    Prop where
  le : bs.length ≤ remain
  range : bs <+: file.drop pos
  told : bs.length < min remain (file.length - pos) → ret.Reported

def Ends (file : List α) (pos remain : Nat)
    (r : List (SendfileEvent α) × Option SendfileRet) : Prop :=
  ∃ ret, r.2 = some ret ∧ RestExact file pos remain (handedBytes r.1) ret

theorem append_prefix_drop_iff {file bs cs : List α} {pos : Nat} :
    bs ++ cs <+: file.drop pos ↔ bs <+: file.drop pos ∧ cs <+: file.drop (pos + bs.length) := by
  constructor
  · intro h
    have hbs : bs <+: file.drop pos := (List.prefix_append bs cs).trans h
    refine ⟨hbs, ?_⟩
    obtain ⟨rest, hrest⟩ := h
    rw [← List.drop_drop, ← hrest, List.append_assoc, List.drop_left]
    exact List.prefix_append cs rest
  · rintro ⟨⟨rest, hrest⟩, hcs⟩
    rw [← List.drop_drop, ← hrest, List.drop_left] at hcs
    rw [← hrest]
    exact (List.prefix_append_right_inj bs).mpr hcs

theorem prefix_drop_length {file bs : List α} {pos : Nat} (h : bs <+: file.drop pos) :
    bs.length ≤ file.length - pos := by
  have hle := h.length_le
  rwa [List.length_drop] at hle

theorem restExact_append_iff {file bs cs : List α} {pos remain : Nat} {ret : SendfileRet}
    (hbs : bs <+: file.drop pos) (hle : bs.length ≤ remain) :
    RestExact file pos remain (bs ++ cs) ret ↔
      RestExact file (pos + bs.length) (remain - bs.length) cs ret := by
  have hroom := prefix_drop_length hbs
  constructor
  · rintro ⟨hlen, hrange, htold⟩
    rw [List.length_append] at hlen htold
    exact ⟨by omega, (append_prefix_drop_iff.mp hrange).2, fun hlt => htold (by omega)⟩
  · rintro ⟨hlen, hrange, htold⟩
    refine ⟨?_, append_prefix_drop_iff.mpr ⟨hbs, hrange⟩, fun hlt => htold ?_⟩
    · rw [List.length_append]
      omega
    · rw [List.length_append] at hlt
      omega

theorem handedBytes_closeFile (opened : Bool) :
    handedBytes (closeFile opened : List (SendfileEvent α)) = [] := by
  cases opened <;> rfl

theorem handedBytes_cons (bs : List α) (es : List (SendfileEvent α)) :
    handedBytes (.handed bs :: es) = bs ++ handedBytes es :=
  List.flatMap_cons

theorem ends_handed_iff {file bs : List α} {pos remain : Nat} {es : List (SendfileEvent α)}
    {o : Option SendfileRet} (hbs : bs <+: file.drop pos) (hle : bs.length ≤ remain) :
    Ends file pos remain (.handed bs :: es, o) ↔
      Ends file (pos + bs.length) (remain - bs.length) (es, o) := by
  simp only [Ends, handedBytes_cons, restExact_append_iff hbs hle]

theorem ends_close (file : List α) {pos remain : Nat} (opened : Bool) {ret : SendfileRet}
    (h : ret.Reported ∨ file.length ≤ pos ∨ remain = 0) :
    Ends file pos remain (closeFile opened, some ret) := by
  refine ⟨ret, rfl, ?_⟩
  rw [handedBytes_closeFile]
  refine ⟨Nat.zero_le remain, List.nil_prefix, fun hlt => ?_⟩
  rw [List.length_nil] at hlt
  rcases h with htold | hend
  · exact htold
  · omega

theorem not_ends_of_handed {file bs : List α} {pos remain : Nat} {es : List (SendfileEvent α)}
    {o : Option SendfileRet} (hbs : ¬ bs <+: file.drop pos) :
    ¬ Ends file pos remain (.handed bs :: es, o) := by
  rintro ⟨ret, -, hrest⟩
  have hrange := hrest.range
  rw [handedBytes_cons] at hrange
  exact hbs ((List.prefix_append bs _).trans hrange)

end Rest

section Turn

variable {file : List α} {bufsiz offset remain sent : Nat} {data : List α}

theorem refill_zero (p : Pread) : refill file bufsiz offset (0 : Nat) sent data p = .ok data := rfl

theorem refill_cases (hbuf : 0 < bufsiz) (hremain : 0 < remain) (p : Pread) :
    (readCount file.length (offset + sent) (min remain bufsiz) p = 0 ∧
        ∃ ret, refill file bufsiz offset remain sent data p = .error ret ∧
          (ret.Reported ∨ file.length ≤ offset + sent)) ∨
      ∃ k, readCount file.length (offset + sent) (min remain bufsiz) p = k ∧ 0 < k ∧ k ≤ remain ∧
        k ≤ bufsiz ∧ offset + sent + k ≤ file.length ∧
        refill file bufsiz offset remain sent data p =
          .ok (data ++ (file.drop (offset + sent)).take k) := by
  have hpos : (0 : Int) < remain := by omega
  unfold refill
  rw [if_pos hpos, Int.toNat_natCast]
  cases p with
  | failed code => exact .inl ⟨rfl, _, rfl, .inl (.inl rfl)⟩
  | data n hn =>
    have hlen : ((file.drop (offset + sent)).take (min n (min remain bufsiz))).length =
        min (min n (min remain bufsiz)) (file.length - (offset + sent)) := by
      rw [List.length_take, List.length_drop]
    simp only [readCount]
    split
    · next hnil =>
      rw [hnil, List.length_nil] at hlen
      exact .inl ⟨hlen.symm, _, rfl, .inr (by omega)⟩
    · next hdata =>
      have hne : 0 < ((file.drop (offset + sent)).take (min n (min remain bufsiz))).length :=
        List.length_pos_iff.mpr hdata
      refine .inr ⟨_, rfl, by omega, by omega, by omega, by omega, ?_⟩
      rw [← hlen, ← List.prefix_iff_eq_take.mp (List.take_prefix _ _)]

theorem sendLoop_stop (opened : Bool) {t : SendTurn} (ts : List SendTurn) {ret : SendfileRet}
    (h : refill file bufsiz offset remain sent data t.pread = .error ret) :
    sendLoop file opened bufsiz offset remain sent data (t :: ts) =
      (closeFile opened, some ret) := by
  rw [sendLoop, h]

variable {data' : List α} {t : SendTurn}

theorem sendLoop_reported (opened : Bool) (ts : List SendTurn)
    (h : refill file bufsiz offset remain sent data t.pread = .ok data') (ht : t.send.Reported) :
    ∃ ret : SendfileRet, ret.Reported ∧
      sendLoop file opened bufsiz offset remain sent data (t :: ts) =
        (.handed (data'.take (min t.send.sent data'.length)) :: closeFile opened, some ret) := by
  rw [sendLoop, h]
  dsimp only
  split
  · exact ⟨_, .inl rfl, rfl⟩
  · next hnone =>
    have htime : t.send.timeout = true := by
      rcases ht with hsome | htrue
      · rw [hnone] at hsome
        cases hsome
      · exact htrue
    rw [if_pos htime]
    exact ⟨_, .inr rfl, rfl⟩

theorem not_reported_iff {r : WriteRet} : ¬ r.Reported ↔ r.err = none ∧ r.timeout = false := by
  unfold WriteRet.Reported
  rw [not_or, Option.not_isSome_iff_eq_none, Bool.not_eq_true]

theorem sendLoop_done (opened : Bool) (ts : List SendTurn)
    (h : refill file bufsiz offset remain sent data t.pread = .ok data')
    (ht : ¬ t.send.Reported) (hall : data'.length ≤ t.send.sent) (hremain : data'.length = remain) :
    ∃ ret : SendfileRet,
      sendLoop file opened bufsiz offset remain sent data (t :: ts) =
        (.handed data' :: closeFile opened, some ret) := by
  obtain ⟨herr, htime⟩ := not_reported_iff.mp ht
  have hlen : min t.send.sent data'.length = data'.length := Nat.min_eq_right hall
  have hlast : (remain : Int) - data'.length = 0 ∧ (data'.drop data'.length).length = 0 := by
    rw [List.length_drop]
    omega
  rw [sendLoop, h]
  simp only [herr, htime, Bool.false_eq_true, if_false, hlen, hlast, and_self, if_true,
    List.take_length]
  exact ⟨_, rfl⟩

theorem sendLoop_next (opened : Bool) (ts : List SendTurn)
    (h : refill file bufsiz offset remain sent data t.pread = .ok data')
    (ht : ¬ t.send.Reported) {len : Nat} (hlen : min t.send.sent data'.length = len)
    (hremain : len ≤ remain) (hmore : ¬ (len = remain ∧ data'.length = len)) :
    sendLoop file opened bufsiz offset remain sent data (t :: ts) =
      (.handed (data'.take len) ::
          (sendLoop file opened bufsiz offset ((remain - len : Nat) : Int) (sent + len)
            (data'.drop len) ts).1,
        (sendLoop file opened bufsiz offset ((remain - len : Nat) : Int) (sent + len)
            (data'.drop len) ts).2) := by
  obtain ⟨herr, htime⟩ := not_reported_iff.mp ht
  have hlast : ¬ ((remain : Int) - len = 0 ∧ (data'.drop len).length = 0) := by
    rw [List.length_drop]
    omega
  rw [sendLoop, h]
  simp only [herr, htime, Bool.false_eq_true, if_false, hlen, hlast, Int.ofNat_sub hremain]

theorem sendLoop_turn (opened : Bool) {remain : Int}
    (h : refill file bufsiz offset remain sent data t.pread = .ok data') {len : Nat}
    (hlen : min t.send.sent data'.length = len) :
    (∃ ret : SendfileRet, ret.len = some (sent + len) ∧
        ∀ ts, sendLoop file opened bufsiz offset remain sent data (t :: ts) =
          (.handed (data'.take len) :: closeFile opened, some ret)) ∨
      ∀ ts, sendLoop file opened bufsiz offset remain sent data (t :: ts) =
        (.handed (data'.take len) ::
            (sendLoop file opened bufsiz offset (remain - len) (sent + len) (data'.drop len) ts).1,
          (sendLoop file opened bufsiz offset (remain - len) (sent + len) (data'.drop len) ts).2) := by
  simp only [sendLoop, h, hlen]
  split
  · exact .inl ⟨_, rfl, fun _ => rfl⟩
  split
  · exact .inl ⟨_, rfl, fun _ => rfl⟩
  split
  · exact .inl ⟨_, rfl, fun _ => rfl⟩
  · exact .inr fun _ => rfl

end Turn

section Loop

variable {file : List α} {opened : Bool} {bufsiz offset : Nat}

def Misplaced (file : List α) (p : Nat) (bad : List α) : Prop :=
  ∀ x, bad.head? = some x → file[p]? ≠ some x

theorem misplaced_nil (p : Nat) : Misplaced file p [] := by
  intro x hx
  cases hx

theorem Misplaced.append {p : Nat} {bad cs : List α} (h : Misplaced file p bad)
    (hcs : bad = [] → Misplaced file p cs) : Misplaced file p (bad ++ cs) := by
  cases bad with
  | nil => exact hcs rfl
  | cons x xs => exact fun y hy => h y hy

theorem misplaced_of_nodup (hfile : file.Nodup) {pos p k : Nat} (hlt : pos < p) :
    Misplaced file p ((file.drop pos).take k) := by
  intro x hx hp
  rw [List.head?_take] at hx
  split at hx
  · cases hx
  rw [List.head?_drop] at hx
  have hpos : pos < file.length := (List.getElem?_eq_some_iff.mp hx).1
  exact absurd ((List.getElem?_inj hpos hfile).mp (hx.trans hp.symm)) (Nat.ne_of_lt hlt)

theorem not_prefix_of_misplaced {pos left len : Nat} {bad : List α}
    (hroom : pos + left ≤ file.length) (hbad : Misplaced file (pos + left) bad) (hne : bad ≠ [])
    (hlen : left < len) : ¬ ((file.drop pos).take left ++ bad).take len <+: file.drop pos := by
  obtain ⟨x, xs, rfl⟩ := List.exists_cons_of_ne_nil hne
  have hleft : ((file.drop pos).take left).length = left := by
    rw [List.length_take, List.length_drop]
    omega
  intro hpre
  obtain ⟨m, rfl⟩ := Nat.exists_eq_add_of_lt hlen
  rw [List.take_append, hleft, List.take_of_length_le (by omega), append_prefix_drop_iff, hleft,
    show left + m + 1 - left = m + 1 by omega, List.take_succ_cons] at hpre
  obtain ⟨rest, hrest⟩ := hpre.2
  refine hbad x rfl ?_
  rw [← List.head?_drop, ← hrest]
  rfl

theorem take_leftover {pos left len : Nat} (bad : List α) (hroom : pos + left ≤ file.length)
    (hlen : len ≤ left) :
    ((file.drop pos).take left ++ bad).take len = (file.drop pos).take len ∧
      ((file.drop pos).take left ++ bad).drop len =
        (file.drop (pos + len)).take (left - len) ++ bad := by
  have hle : len ≤ ((file.drop pos).take left).length := by
    rw [List.length_take, List.length_drop]
    omega
  refine ⟨?_, ?_⟩
  · rw [List.take_append_of_le_length hle, List.take_take, Nat.min_eq_left hlen]
  · rw [List.drop_append_of_le_length hle, List.drop_take, List.drop_drop]

theorem leftover_turn_iff (opened : Bool) (ts : List SendTurn) {t : SendTurn}
    {remain sent left : Nat} {data bad : List α} (hleft : left ≤ remain)
    (hroom : offset + sent + left ≤ file.length)
    (hbad : Misplaced file (offset + sent + left) bad) (hne : bad ≠ [])
    (hrefill : refill file bufsiz offset remain sent data t.pread =
      .ok ((file.drop (offset + sent)).take left ++ bad)) :
    Ends file (offset + sent) remain
        (sendLoop file opened bufsiz offset remain sent data (t :: ts)) ↔
      t.send.sent ≤ left ∧
        (t.send.Reported ∨
          Ends file (offset + (sent + t.send.sent)) (remain - t.send.sent)
            (sendLoop file opened bufsiz offset ((remain - t.send.sent : Nat) : Int)
              (sent + t.send.sent)
              ((file.drop (offset + (sent + t.send.sent))).take (left - t.send.sent) ++ bad)
              ts)) := by
  have hpos : 0 < bad.length := List.length_pos_iff.mpr hne
  have hlen : ((file.drop (offset + sent)).take left ++ bad).length = left + bad.length := by
    rw [List.length_append, List.length_take, List.length_drop]
    omega
  by_cases hle : t.send.sent ≤ left
  · have hmin : min t.send.sent ((file.drop (offset + sent)).take left ++ bad).length =
        t.send.sent := by omega
    obtain ⟨htake, hdrop⟩ := take_leftover bad hroom hle
    have hcount : ((file.drop (offset + sent)).take t.send.sent).length = t.send.sent := by
      rw [List.length_take, List.length_drop]
      omega
    have hpre : (file.drop (offset + sent)).take t.send.sent <+: file.drop (offset + sent) :=
      List.take_prefix _ _
    by_cases hrep : t.send.Reported
    · obtain ⟨ret, hret, heq⟩ := sendLoop_reported opened ts hrefill hrep
      rw [heq, hmin, htake, ends_handed_iff hpre (by omega)]
      exact ⟨fun _ => ⟨hle, .inl hrep⟩, fun _ => ends_close file opened (.inl hret)⟩
    · rw [sendLoop_next opened ts hrefill hrep hmin (by omega) (by omega), htake,
        ends_handed_iff hpre (by omega), hcount, hdrop, Nat.add_assoc]
      exact ⟨fun h => ⟨hle, .inr h⟩, fun h => h.2.resolve_left hrep⟩
  · -- the send reaches the misplaced bytes, and nothing after it can put them right
    have hwrong : ¬ ((file.drop (offset + sent)).take left ++ bad).take
        (min t.send.sent ((file.drop (offset + sent)).take left ++ bad).length) <+:
          file.drop (offset + sent) :=
      not_prefix_of_misplaced hroom hbad hne (by omega)
    refine ⟨fun hends => ?_, fun h => absurd h.1 hle⟩
    rcases sendLoop_turn opened hrefill rfl with ⟨ret, -, heq⟩ | heq
    · rw [heq] at hends
      exact absurd hends (not_ends_of_handed hwrong)
    · rw [heq] at hends
      exact absurd hends (not_ends_of_handed hwrong)

theorem leftover_iff (hfile : file.Nodup) (hbuf : 0 < bufsiz) {remain sent left : Nat}
    {bad : List α} (hleft : left ≤ remain) (hroom : offset + sent + left ≤ file.length)
    (hbad : Misplaced file (offset + sent + left) bad) (hne : left = 0 → bad ≠ [])
    (ts : List SendTurn) :
    Ends file (offset + sent) remain
        (sendLoop file opened bufsiz offset remain sent
          ((file.drop (offset + sent)).take left ++ bad) ts) ↔
      LeftoverSound file.length bufsiz (offset + sent) remain left ts := by
  induction ts generalizing sent remain left bad with
  | nil => exact ⟨fun ⟨_, hnone, _⟩ => (nomatch hnone), False.elim⟩
  | cons t ts ih =>
    have hsend : ∀ bad' : List α, bad' ≠ [] → Misplaced file (offset + sent + left) bad' →
        refill file bufsiz offset remain sent ((file.drop (offset + sent)).take left ++ bad)
          t.pread = .ok ((file.drop (offset + sent)).take left ++ bad') →
        (Ends file (offset + sent) remain
            (sendLoop file opened bufsiz offset remain sent
              ((file.drop (offset + sent)).take left ++ bad) (t :: ts)) ↔
          t.send.sent ≤ left ∧
            (t.send.Reported ∨
              LeftoverSound file.length bufsiz (offset + sent + t.send.sent)
                (remain - t.send.sent) (left - t.send.sent) ts)) := by
      intro bad' hne' hbad' hrefill
      rw [leftover_turn_iff opened ts hleft hroom hbad' hne' hrefill, Nat.add_assoc offset]
      refine and_congr_right fun hle => or_congr_right (ih (by omega) (by omega) ?_ fun _ => hne')
      rwa [show offset + (sent + t.send.sent) + (left - t.send.sent) = offset + sent + left by
        omega]
    rw [LeftoverSound]
    rcases Nat.eq_zero_or_pos remain with hzero | hremain
    · -- everything wanted was sent: the loop goes on for the bytes it has read twice
      have hbad0 : bad ≠ [] := hne (by omega)
      subst hzero
      rw [hsend bad hbad0 hbad (refill_zero t.pread)]
      exact ⟨.inr, fun h => h.resolve_left fun hpos => absurd hpos.1 (by omega)⟩
    · rcases refill_cases hbuf hremain t.pread with
        ⟨hk, ret, hstop, hend⟩ | ⟨k, hk, hkpos, -, -, hroomk, hok⟩
      · rw [sendLoop_stop opened ts hstop]
        exact ⟨fun _ => .inl ⟨hremain, hk⟩, fun _ => ends_close file opened (hend.imp id .inl)⟩
      · -- the read starts where the rest starts, not behind it
        rw [List.append_assoc] at hok
        have hlater : bad = [] → offset + sent < offset + sent + left := fun hnil =>
          Nat.lt_add_of_pos_right (Nat.pos_of_ne_zero fun hzero => hne hzero hnil)
        have hread : ((file.drop (offset + sent)).take k).length = k := by
          rw [List.length_take, List.length_drop]
          omega
        have hmore : bad ++ (file.drop (offset + sent)).take k ≠ [] := by
          intro hnil
          rw [(List.append_eq_nil_iff.mp hnil).2, List.length_nil] at hread
          omega
        rw [hsend _ hmore (hbad.append fun hnil => misplaced_of_nodup hfile (hlater hnil)) hok]
        exact ⟨.inr, fun h => h.resolve_left fun hend => absurd hend.2 (by omega)⟩

theorem sendLoop_iff (hfile : file.Nodup) (hbuf : 0 < bufsiz) {remain sent : Nat}
    (hremain : 0 < remain) (ts : List SendTurn) :
    Ends file (offset + sent) remain (sendLoop file opened bufsiz offset remain sent [] ts) ↔
      SendsSound file.length bufsiz (offset + sent) remain ts := by
  induction ts generalizing sent remain with
  | nil => exact ⟨fun ⟨_, hnone, _⟩ => (nomatch hnone), False.elim⟩
  | cons t ts ih =>
    rw [SendsSound]
    rcases refill_cases hbuf hremain t.pread with
      ⟨hk, ret, hstop, hend⟩ | ⟨k, hk, hkpos, hkle, -, hroom, hok⟩
    · rw [sendLoop_stop opened ts hstop]
      exact ⟨fun _ => .inl hk, fun _ => ends_close file opened (hend.imp id .inl)⟩
    rw [List.nil_append] at hok
    have hread : ((file.drop (offset + sent)).take k).length = k := by
      rw [List.length_take, List.length_drop]
      omega
    have hpre : ∀ len, (file.drop (offset + sent)).take len <+: file.drop (offset + sent) :=
      fun len => List.take_prefix len _
    simp only [hk, Nat.ne_of_gt hkpos, false_or]
    by_cases hrep : t.send.Reported
    · obtain ⟨ret, hret, heq⟩ := sendLoop_reported opened ts hok hrep
      rw [heq, hread, List.take_take, Nat.min_eq_left (Nat.min_le_right _ _),
        ends_handed_iff (hpre _) (by rw [List.length_take]; omega)]
      exact ⟨fun _ => .inl hrep, fun _ => ends_close file opened (.inl hret)⟩
    simp only [hrep, false_or]
    by_cases hall : k ≤ t.send.sent
    · rw [if_pos hall]
      by_cases hlast : k = remain
      · obtain ⟨ret, heq⟩ := sendLoop_done opened ts hok hrep (by omega) (by omega)
        rw [heq, ends_handed_iff (hpre k) (by omega)]
        exact ⟨fun _ => .inl hlast, fun _ => ends_close file opened (.inr (.inr (by omega)))⟩
      · have hmin : min t.send.sent ((file.drop (offset + sent)).take k).length = k := by omega
        rw [sendLoop_next opened ts hok hrep hmin hkle (by omega), List.take_take, Nat.min_self,
          ends_handed_iff (hpre k) (by omega), hread, List.drop_take, Nat.sub_self,
          List.take_zero, Nat.add_assoc, ih (by omega)]
        exact ⟨.inr, fun h => h.resolve_left hlast⟩
    · rw [if_neg hall]
      -- the first rest that is left in silence: nothing behind it is misplaced yet
      have hmin : min t.send.sent ((file.drop (offset + sent)).take k).length = t.send.sent := by
        omega
      have htaken : ((file.drop (offset + sent)).take t.send.sent).length = t.send.sent := by
        rw [List.length_take, List.length_drop]
        omega
      obtain ⟨htake, hdrop⟩ := take_leftover [] hroom (Nat.le_of_not_le hall)
      rw [List.append_nil] at htake hdrop
      rw [sendLoop_next opened ts hok hrep hmin (by omega) (by omega), htake, hdrop,
        ends_handed_iff (hpre _) (by omega), htaken, Nat.add_assoc]
      exact leftover_iff hfile hbuf (by omega) (by omega) (misplaced_nil _)
        (fun hzero => absurd hzero (by omega)) ts

theorem refill_error {remain : Int} {sent : Nat} {data : List α} {p : Pread} {ret : SendfileRet}
    (h : refill file bufsiz offset remain sent data p = .error ret) : ret.len = some sent := by
  unfold refill at h
  split at h
  · split at h
    · cases h
      rfl
    · split at h
      · cases h
        rfl
      · cases h
  · cases h

theorem closes_handed (bs : List α) (es : List (SendfileEvent α)) :
    closes (.handed bs :: es) = closes es :=
  List.countP_cons_of_neg Bool.false_ne_true

theorem sendLoop_count {remain : Int} {sent : Nat} {data : List α} (ts : List SendTurn)
    {ret : SendfileRet} (h : (sendLoop file opened bufsiz offset remain sent data ts).2 = some ret) :
    ret.len =
        some (sent + (handedBytes (sendLoop file opened bufsiz offset remain sent data ts).1).length) ∧
      closes (sendLoop file opened bufsiz offset remain sent data ts).1 =
        closes (closeFile opened : List (SendfileEvent α)) := by
  induction ts generalizing remain sent data with
  | nil => cases h
  | cons t ts ih =>
    cases hrefill : refill file bufsiz offset remain sent data t.pread with
    | error r =>
      rw [sendLoop, hrefill] at h ⊢
      cases h
      simp only [handedBytes_closeFile, List.length_nil, Nat.add_zero, refill_error hrefill,
        and_self]
    | ok data' =>
      have hlen : ∀ len, min t.send.sent data'.length = len → (data'.take len).length = len := by
        intro len hmin
        rw [List.length_take]
        omega
      rcases sendLoop_turn opened hrefill rfl with ⟨r, hr, heq⟩ | heq
      · rw [heq] at h ⊢
        cases h
        rw [handedBytes_cons, handedBytes_closeFile, List.append_nil, hlen _ rfl, closes_handed]
        exact ⟨hr, rfl⟩
      · rw [heq] at h ⊢
        obtain ⟨hcount, hclose⟩ := ih h
        rw [handedBytes_cons, List.length_append, hlen _ rfl, closes_handed, ← Nat.add_assoc]
        exact ⟨hcount, hclose⟩

theorem sendLoop_returning (remain : Int) (sent : Nat) (data : List α) :
    Returning (sendLoop file opened bufsiz offset remain sent data) := by
  intro ts us h
  induction ts generalizing remain sent data with
  | nil => cases h
  | cons t ts ih =>
    rw [List.cons_append]
    cases hrefill : refill file bufsiz offset remain sent data t.pread with
    | error r =>
      rw [sendLoop, sendLoop, hrefill]
    | ok data' =>
      rcases sendLoop_turn opened hrefill rfl with ⟨r, -, heq⟩ | heq
      · rw [heq, heq]
      · rw [heq] at h
        rw [heq, heq, ih _ _ _ h]

end Loop

section Call

def SendfileCall.start (c : SendfileCall α) : Nat :=
  match c.offset with
  | .uint n => n
  | _ => 0

def SendfileCall.wanted (c : SendfileCall α) : Nat :=
  match c.bytes with
  | .uint n => n
  | _ => c.file.length - c.start

def SendfileCall.opens (c : SendfileCall α) : Bool :=
  match c.tofile with
  | .file opened => opened
  | .failed _ => false

/-- The same call on a file whose bytes carry their position. -/
def SendfileCall.tagged (c : SendfileCall α) : SendfileCall (α × Nat) where
  file := c.file.zipIdx
  tofile := c.tofile
  offset := c.offset
  bytes := c.bytes
  fstat := c.fstat
  sndbuf := c.sndbuf

structure ReturnExact (c : SendfileCall α) (es : List (SendfileEvent α)) (ret : SendfileRet) :
    Prop where
  count : (handedBytes es).length = ret.len.getD 0
  handed : handedBytes es = (c.file.drop c.start).take (ret.len.getD 0)
  le : ret.len.getD 0 ≤ c.wanted
  short : ret.len.getD 0 < min c.wanted (c.file.length - c.start) → ret.Reported
  closed : closes es = if c.opens then 1 else 0

structure SendfileExact (c : SendfileCall α) (turns : Nat → SendTurn) : Prop where
  returns : ∃ n, (sendfile c (firstTurns turns n)).2.isSome = true
  exact : ∀ n ret, (sendfile c (firstTurns turns n)).2 = some ret →
    ReturnExact c (sendfile c (firstTurns turns n)).1 ret

/-- A call that gets as far as its loop meets sends that keep its bytes in order, and ends. -/
def SendsFit (c : SendfileCall α) (turns : Nat → SendTurn) : Prop :=
  ∀ p, sendfilePlan c = .ok p →
    ∃ n, SendsSound c.file.length p.bufsiz p.offset p.bytes (firstTurns turns n)

structure PlanSpec (c : SendfileCall α) (p : SendfilePlan) : Prop where
  opened : p.opened = c.opens
  offset : p.offset = c.start
  bytes : p.bytes = c.wanted
  bytes_pos : 0 < p.bytes
  bufsiz_pos : 0 < p.bufsiz
  bufsiz_le : p.bufsiz ≤ defaultSendBufsiz

theorem offsetArg_ok {c : SendfileCall α} {offset : Nat} (h : c.offsetArg = .ok offset) :
    offset = c.start := by
  unfold SendfileCall.offsetArg at h
  unfold SendfileCall.start
  cases hoffset : c.offset with
  | nil =>
    rw [hoffset] at h
    cases h
    rfl
  | uint n =>
    rw [hoffset] at h
    cases h
    rfl
  | other =>
    rw [hoffset] at h
    cases h

theorem bytesArg_ok {c : SendfileCall α} {bytes : Nat} (h : c.bytesArg c.start = .ok bytes) :
    bytes = c.wanted := by
  unfold SendfileCall.bytesArg at h
  unfold SendfileCall.wanted
  cases hbytes : c.bytes with
  | nil =>
    rw [hbytes] at h
    dsimp only at h
    split at h
    · cases h
    · cases h
      rfl
  | uint n =>
    rw [hbytes] at h
    cases h
    rfl
  | other =>
    rw [hbytes] at h
    cases h

theorem sendfilePlan_ok {c : SendfileCall α} {p : SendfilePlan} (h : sendfilePlan c = .ok p) :
    PlanSpec c p := by
  unfold sendfilePlan at h
  split at h
  · cases h
  next opened hfile =>
  split at h
  · cases h
  next offset hoffset =>
  obtain rfl := offsetArg_ok hoffset
  split at h
  · cases h
  next bytes hbytes =>
  split at h
  · cases h
  next hpos =>
  split at h
  · cases h
  next n hn _ =>
  cases h
  refine ⟨?_, rfl, bytesArg_ok hbytes, Nat.pos_of_ne_zero hpos, ?_, Nat.min_le_right n _⟩
  · rw [SendfileCall.opens, hfile]
  · exact Nat.lt_min.mpr ⟨hn, by decide⟩

theorem sendfilePlan_error {c : SendfileCall α} {opened : Bool} {ret : SendfileRet}
    (h : sendfilePlan c = .error (opened, ret)) :
    opened = c.opens ∧ ret.len.getD 0 = 0 ∧ (ret.Reported ∨ c.wanted = 0) := by
  unfold sendfilePlan at h
  split at h
  · next hfile =>
    cases h
    exact ⟨by rw [SendfileCall.opens, hfile], rfl, .inl (.inl rfl)⟩
  next opened' hfile =>
  have hopens : opened' = c.opens := by rw [SendfileCall.opens, hfile]
  split at h
  · cases h
    exact ⟨hopens, rfl, .inl (.inl rfl)⟩
  next offset hoffset =>
  obtain rfl := offsetArg_ok hoffset
  split at h
  · cases h
    exact ⟨hopens, rfl, .inl (.inl rfl)⟩
  next bytes hbytes =>
  split at h
  · next hzero =>
    cases h
    exact ⟨hopens, rfl, .inr (by rw [← bytesArg_ok hbytes, hzero])⟩
  split at h
  · cases h
    exact ⟨hopens, rfl, .inl (.inl rfl)⟩
  · cases h

theorem closes_closeFile (opened : Bool) :
    closes (closeFile opened : List (SendfileEvent α)) = if opened then 1 else 0 := by
  cases opened <;> rfl

theorem sendfilePlan_tagged (c : SendfileCall α) : sendfilePlan c.tagged = sendfilePlan c := by
  unfold sendfilePlan SendfileCall.bytesArg SendfileCall.offsetArg SendfileCall.tagged
  rw [List.length_zipIdx]

theorem sendfile_of_plan {c : SendfileCall α} {p : SendfilePlan} (h : sendfilePlan c = .ok p)
    (ts : List SendTurn) :
    sendfile c ts = sendLoop c.file p.opened p.bufsiz p.offset p.bytes 0 [] ts := by
  rw [sendfile, h]

theorem ends_iff_returnExact {c : SendfileCall α} {p : SendfilePlan} (h : sendfilePlan c = .ok p)
    (ts : List SendTurn) :
    Ends c.file p.offset p.bytes (sendfile c ts) ↔
      ∃ ret, (sendfile c ts).2 = some ret ∧ ReturnExact c (sendfile c ts).1 ret := by
  obtain ⟨hopens, hoffset, hbytes, -, -, -⟩ := sendfilePlan_ok h
  refine exists_congr fun ret => and_congr_right fun hret => ?_
  rw [sendfile_of_plan h] at hret ⊢
  obtain ⟨hlen, hcloses⟩ := sendLoop_count ts hret
  have hcount : ret.len.getD 0 =
      (handedBytes (sendLoop c.file p.opened p.bufsiz p.offset p.bytes 0 [] ts).1).length := by
    rw [hlen, Option.getD_some, Nat.zero_add]
  constructor
  · rintro ⟨hle, hrange, htold⟩
    refine ⟨hcount.symm, ?_, ?_, ?_, ?_⟩
    · rw [hcount, ← hoffset]
      exact List.prefix_iff_eq_take.mp hrange
    · rw [hcount, ← hbytes]
      exact hle
    · rw [hcount, ← hbytes, ← hoffset]
      exact htold
    · rw [hcloses, closes_closeFile, hopens]
  · rintro ⟨-, hhanded, hle, hshort, -⟩
    rw [hcount, ← hoffset] at hhanded
    rw [hcount, ← hbytes] at hle
    rw [hcount, ← hbytes, ← hoffset] at hshort
    exact ⟨hle, List.prefix_iff_eq_take.mpr hhanded, hshort⟩

theorem sendfile_early {c : SendfileCall α} {opened : Bool} {ret : SendfileRet}
    (h : sendfilePlan c = .error (opened, ret)) (ts : List SendTurn) :
    (sendfile c ts).2 = some ret ∧ ReturnExact c (sendfile c ts).1 ret := by
  obtain ⟨rfl, hzero, htold⟩ := sendfilePlan_error h
  have hrun : sendfile c ts = (closeFile c.opens, some ret) := by rw [sendfile, h]
  rw [hrun]
  refine ⟨rfl, ?_, ?_, ?_, fun hlt => ?_, closes_closeFile c.opens⟩
  · rw [handedBytes_closeFile, hzero, List.length_nil]
  · rw [handedBytes_closeFile, hzero, List.take_zero]
  · rw [hzero]
    exact Nat.zero_le _
  · rcases htold with hreported | hwanted
    · exact hreported
    · rw [hwanted, Nat.zero_min] at hlt
      exact absurd hlt (Nat.not_lt_zero _)

theorem sendfile_returning (c : SendfileCall α) : Returning (sendfile c) := by
  intro ts us h
  cases hplan : sendfilePlan c with
  | error r => rw [sendfile, sendfile, hplan]
  | ok p =>
    rw [sendfile_of_plan hplan] at h
    rw [sendfile_of_plan hplan, sendfile_of_plan hplan, sendLoop_returning _ _ _ ts us h]

theorem sendfileExact_iff {c : SendfileCall α} (hfile : c.file.Nodup) (turns : Nat → SendTurn) :
    SendfileExact c turns ↔ SendsFit c turns := by
  cases hplan : sendfilePlan c with
  | error r =>
    refine ⟨fun _ p hp => ?_, fun _ => ⟨⟨0, ?_⟩, fun n ret hret => ?_⟩⟩
    · rw [hplan] at hp
      cases hp
    · rw [(sendfile_early hplan _).1]
      rfl
    · obtain ⟨hret', hexact⟩ := sendfile_early hplan (firstTurns turns n)
      rw [hret'] at hret
      cases hret
      exact hexact
  | ok p =>
    obtain ⟨-, -, -, hbytes, hbufsiz, -⟩ := sendfilePlan_ok hplan
    have hloop : ∀ ts, SendsSound c.file.length p.bufsiz p.offset p.bytes ts ↔
        ∃ ret, (sendfile c ts).2 = some ret ∧ ReturnExact c (sendfile c ts).1 ret := by
      intro ts
      rw [← ends_iff_returnExact hplan, sendfile_of_plan hplan]
      have hiff : Ends c.file (p.offset + 0) p.bytes
          (sendLoop c.file p.opened p.bufsiz p.offset p.bytes 0 [] ts) ↔
            SendsSound c.file.length p.bufsiz (p.offset + 0) p.bytes ts :=
        sendLoop_iff hfile hbufsiz hbytes ts
      exact hiff.symm
    constructor
    · rintro ⟨⟨n, hn⟩, hexact⟩ p' hp'
      rw [hplan] at hp'
      cases hp'
      obtain ⟨ret, hret⟩ := Option.isSome_iff_exists.mp hn
      exact ⟨n, (hloop _).mpr ⟨ret, hret, hexact n ret hret⟩⟩
    · intro hfit
      obtain ⟨m, hm⟩ := hfit p hplan
      obtain ⟨ret, hret, hexact⟩ := (hloop _).mp hm
      have hreturned : (sendfile c (firstTurns turns m)).2.isSome = true := by rw [hret]; rfl
      refine ⟨⟨m, hreturned⟩, fun n ret' hret' => ?_⟩
      have hsame := (sendfile_returning c).unique hreturned (by rw [hret']; rfl)
      rw [← hsame, hret] at hret'
      cases hret'
      rw [← hsame]
      exact hexact

end Call

section Naturality

variable {β : Type*} (f : α → β)

def SendfileEvent.map : SendfileEvent α → SendfileEvent β
  | .handed bs => .handed (bs.map f)
  | .close => .close

def SendfileCall.map (c : SendfileCall α) : SendfileCall β where
  file := c.file.map f
  tofile := c.tofile
  offset := c.offset
  bytes := c.bytes
  fstat := c.fstat
  sndbuf := c.sndbuf

theorem closeFile_map (opened : Bool) :
    (closeFile opened).map (SendfileEvent.map f) = closeFile opened := by
  cases opened <;> rfl

theorem handedBytes_map (es : List (SendfileEvent α)) :
    handedBytes (es.map (SendfileEvent.map f)) = (handedBytes es).map f := by
  induction es with
  | nil => rfl
  | cons e es ih =>
    cases e with
    | handed bs => rw [List.map_cons, SendfileEvent.map, handedBytes_cons, handedBytes_cons, ih,
        List.map_append]
    | close => exact ih

theorem closes_map (es : List (SendfileEvent α)) :
    closes (es.map (SendfileEvent.map f)) = closes es := by
  unfold closes
  rw [List.countP_map]
  refine List.countP_congr fun e _ => ?_
  cases e <;> rfl

theorem refill_map (file : List α) (bufsiz offset : Nat) (remain : Int) (sent : Nat)
    (data : List α) (p : Pread) :
    refill (file.map f) bufsiz offset remain sent (data.map f) p =
      (refill file bufsiz offset remain sent data p).map (List.map f) := by
  unfold refill
  split
  · cases p with
    | failed code => rfl
    | data n hn =>
      simp only [← List.map_drop, ← List.map_take]
      cases (file.drop (offset + sent)).take (min n (min remain.toNat bufsiz)) with
      | nil => rfl
      | cons x xs =>
        simp only [List.map_cons, Except.map, List.map_append]
  · rfl

theorem sendLoop_map (file : List α) (opened : Bool) (bufsiz offset : Nat) (remain : Int)
    (sent : Nat) (data : List α) (ts : List SendTurn) :
    sendLoop (file.map f) opened bufsiz offset remain sent (data.map f) ts =
      ((sendLoop file opened bufsiz offset remain sent data ts).1.map (SendfileEvent.map f),
        (sendLoop file opened bufsiz offset remain sent data ts).2) := by
  induction ts generalizing remain sent data with
  | nil => rfl
  | cons t ts ih =>
    rw [sendLoop, sendLoop, refill_map]
    cases refill file bufsiz offset remain sent data t.pread with
    | error ret => simp only [Except.map, closeFile_map]
    | ok data' =>
      simp only [Except.map, List.length_map, ← List.map_take, ← List.map_drop, ih]
      split
      · simp only [List.map_cons, closeFile_map, SendfileEvent.map]
      split
      · simp only [List.map_cons, closeFile_map, SendfileEvent.map]
      split
      · simp only [List.map_cons, closeFile_map, SendfileEvent.map]
      · simp only [List.map_cons, SendfileEvent.map]

theorem sendfile_map (c : SendfileCall α) (ts : List SendTurn) :
    sendfile (c.map f) ts =
      ((sendfile c ts).1.map (SendfileEvent.map f), (sendfile c ts).2) := by
  have hplan : sendfilePlan (c.map f) = sendfilePlan c := by
    unfold sendfilePlan SendfileCall.bytesArg SendfileCall.offsetArg SendfileCall.map
    rw [List.length_map]
  rw [sendfile, sendfile, hplan]
  cases sendfilePlan c with
  | error r => simp only [closeFile_map]
  | ok p => exact sendLoop_map f c.file p.opened p.bufsiz p.offset p.bytes 0 [] ts

theorem SendfileExact.map {c : SendfileCall α} {turns : Nat → SendTurn}
    (h : SendfileExact c turns) : SendfileExact (c.map f) turns := by
  obtain ⟨⟨n, hn⟩, hexact⟩ := h
  refine ⟨⟨n, by rw [sendfile_map]; exact hn⟩, fun m ret hret => ?_⟩
  rw [sendfile_map] at hret ⊢
  obtain ⟨hcount, hhanded, hle, hshort, hclosed⟩ := hexact m ret hret
  have hlength : (c.map f).file.length = c.file.length := List.length_map f
  have hwanted : (c.map f).wanted = c.wanted := by
    rw [SendfileCall.wanted, SendfileCall.wanted, hlength]
    rfl
  refine ⟨?_, ?_, by rwa [hwanted], ?_, ?_⟩
  · rw [handedBytes_map, List.length_map, hcount]
  · rw [handedBytes_map, hhanded, List.map_take, List.map_drop]
    rfl
  · rw [hwanted, hlength]
    exact hshort
  · rw [closes_map, hclosed]
    rfl

theorem SendfileExact.untag {c : SendfileCall α} {turns : Nat → SendTurn}
    (h : SendfileExact c.tagged turns) : SendfileExact c turns := by
  have hc : c.tagged.map Prod.fst = c := by
    unfold SendfileCall.tagged SendfileCall.map
    rw [List.zipIdx_map_fst]
  rw [← hc]
  exact h.map Prod.fst

end Naturality

/-- A call of `sendfile` returns and hands over the range of the file that it counts, each byte
once and in order, exactly when it meets sends that fit. -/
theorem sendfile_exact (c : SendfileCall α) (turns : Nat → SendTurn) :
    (SendfileExact c.tagged turns ↔ SendsFit c turns) ∧
      (SendsFit c turns → SendfileExact c turns) := by
  have hlength : c.tagged.file.length = c.file.length := List.length_zipIdx
  have hnodup : c.tagged.file.Nodup := .of_map Prod.snd (List.nodup_zipIdx_map_snd c.file)
  have hiff : SendfileExact c.tagged turns ↔ SendsFit c turns := by
    rw [sendfileExact_iff hnodup, SendsFit, SendsFit, sendfilePlan_tagged, hlength]
  exact ⟨hiff, fun hfit => (hiff.mpr hfit).untag⟩

theorem sendsSound_of_whole {turns : Nat → SendTurn} {size bufsiz remain : Nat} (pos : Nat)
    (hremain : 0 < remain)
    (h : ∀ i, (turns i).send.Reported ∨ bufsiz ≤ (turns i).send.sent) :
    ∃ n ≤ remain, SendsSound size bufsiz pos remain (firstTurns turns n) := by
  induction remain using Nat.strong_induction_on generalizing pos turns with
  | _ remain ih =>
    have hk : readCount size pos (min remain bufsiz) (turns 0).pread ≤ min remain bufsiz := by
      cases (turns 0).pread with
      | failed code => exact Nat.zero_le _
      | data n hn =>
        rw [readCount]
        omega
    by_cases hend : readCount size pos (min remain bufsiz) (turns 0).pread = 0 ∨
        (turns 0).send.Reported ∨ readCount size pos (min remain bufsiz) (turns 0).pread = remain
    · refine ⟨1, hremain, ?_⟩
      rw [firstTurns_succ, SendsSound]
      rcases hend with hzero | hrep | hall
      · exact .inl hzero
      · exact .inr (.inl hrep)
      · refine (h 0).elim (fun hrep => .inr (.inl hrep)) fun hwhole => .inr (.inr ?_)
        rw [if_pos (by omega)]
        exact .inl hall
    · rw [not_or, not_or] at hend
      obtain ⟨hzero, hrep, hall⟩ := hend
      have hwhole := (h 0).resolve_left hrep
      obtain ⟨n, hn, hrest⟩ := ih (remain - readCount size pos (min remain bufsiz) (turns 0).pread)
        (by omega) (pos + readCount size pos (min remain bufsiz) (turns 0).pread) (by omega)
        fun i => h (i + 1)
      refine ⟨n + 1, by omega, ?_⟩
      rw [firstTurns_succ, SendsSound]
      refine .inr (.inr ?_)
      rw [if_pos (by omega)]
      exact .inr hrest

theorem sendsFit_of_whole (c : SendfileCall α) {turns : Nat → SendTurn}
    (h : ∀ i, (turns i).send.Reported ∨ defaultSendBufsiz ≤ (turns i).send.sent) :
    SendsFit c turns := by
  intro p hp
  obtain ⟨-, -, -, hbytes, -, hbufsiz⟩ := sendfilePlan_ok hp
  obtain ⟨n, -, hn⟩ := sendsSound_of_whole p.offset hbytes fun i => (h i).imp id hbufsiz.trans
  exact ⟨n, hn⟩

/-- A file of four bytes, sent over a connection that the peer has closed: `Socket:write` answers
0 with neither an error nor a timeout, whenever it is called. -/
def closedPeerCall : SendfileCall Byte where
  file := [1, 2, 3, 4]
  tofile := .file true
  offset := .nil
  bytes := .nil
  fstat := none
  sndbuf := .size 8 (by decide)

def closedPeerTurn : SendTurn where
  pread := .data 4 (Nat.succ_pos 3)
  send := { sent := 0 }

/-- A send that takes one byte in silence: the other three are handed over twice. -/
example :
    handedBytes (sendfile closedPeerCall
      [⟨.data 4 (by decide), { sent := 1 }⟩, ⟨.data 4 (by decide), { sent := 6 }⟩]).1 =
        [1, 2, 3, 4, 2, 3, 4] := by
  decide

theorem leftover_closedPeer (n : Nat) :
    ¬ LeftoverSound 4 8 0 4 4 (firstTurns (fun _ => closedPeerTurn) n) := by
  induction n with
  | zero => exact id
  | succ n ih =>
    rw [firstTurns_succ, LeftoverSound]
    rintro (⟨-, hread⟩ | ⟨-, (hsome | htrue) | hrest⟩)
    · exact absurd hread (by decide)
    · cases hsome
    · cases htrue
    · exact ih hrest

/-- The call never returns. -/
theorem sendfile_closedPeer :
    ¬ SendfileExact closedPeerCall.tagged (fun _ => closedPeerTurn) := by
  intro h
  have hnodup : closedPeerCall.tagged.file.Nodup := by decide
  obtain ⟨n, hn⟩ := (sendfileExact_iff hnodup _).mp h ⟨true, 0, 4, 8⟩ rfl
  cases n with
  | zero => exact hn
  | succ n =>
    rw [firstTurns_succ, SendsSound] at hn
    rcases hn with hread | (hsome | htrue) | hrest
    · exact absurd hread (by decide)
    · cases hsome
    · cases htrue
    · exact leftover_closedPeer n hrest

end LuaNet.Tls
