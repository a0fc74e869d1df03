import Velox.Arbiter.Channel

/-!
# Reading a response

`chan_recv` reads until it has a message that is not `WAIT_NEXT`.  Each read is
made in the loop of `WHILE_EINTR`, which calls `read` again after every error
and only prints those that are not `EINTR`.  What comes of the reads is given
as a sequence.  The assertion that a read gives some bytes is not evaluated in
a release build.
-/

namespace Velox

inductive ReadOutcome where
  /-- A message; `none` if its bytes are not those of a response. -/
  | message (parsed : Option Response)
  | eintr
  /-- Any other error. -/
  | error (errno : Int32)
  | eof

/-- Where `chan_recv` stands between two reads. -/
inductive RecvPc where
  | reading
  | returned (resp : Response)
  /-- The return code of a null pointer is looked at. -/
  | crashed
  deriving DecidableEq

namespace ReadOutcome

def failed : ReadOutcome -> Bool
  | .eintr => true
  | .error _ => true
  | _ => false

/-- `response__unpack`, which wants the required return code. -/
def responseUnpack (resp : Response) : Option Response :=
  resp.retCode.map fun _ => resp

/-- The pointer to the message; no bytes are a response without fields. -/
def unpacked : ReadOutcome -> Option Response
  | .message parsed => parsed.bind responseUnpack
  | .eof => responseUnpack ⟨.notSet, none⟩
  | _ => none

/-- The pointer whose return code is looked at after a read, if one is. -/
def inspected (o : ReadOutcome) : Option (Option Response) :=
  if o.failed then none else some o.unpacked

def round (o : ReadOutcome) : RecvPc :=
  if o.failed then .reading
  else
    match o.unpacked with
    | none => .crashed
    | some resp =>
        if resp.retCode = some .waitNext then .reading else .returned resp

/-- The outcomes after which `read` is to be called again. -/
def Retryable (o : ReadOutcome) : Prop :=
  o = .eintr ∨ exists resp, o.unpacked = some resp ∧ ¬ resp.Final

end ReadOutcome

def chanRecv (outcomes : Nat -> ReadOutcome) : Nat -> RecvPc
  | 0 => .reading
  | n + 1 =>
      match chanRecv outcomes n with
      | .reading => (outcomes n).round
      | pc => pc

namespace ChanRecv

open ReadOutcome

/-!
## One read
-/

theorem unpacked_of_failed {o : ReadOutcome} (h : o.failed = true) :
    o.unpacked = none := by
  cases o with
  | message parsed => cases h
  | eof => cases h
  | eintr => rfl
  | error errno => rfl

theorem round_of_unpacked {o : ReadOutcome} {resp : Response}
    (h : o.unpacked = some resp) :
    o.round = if resp.retCode = some .waitNext then .reading
      else .returned resp := by
  have hread : o.failed = false := by
    by_contra hfailed
    rw [unpacked_of_failed (Bool.not_eq_false _ ▸ hfailed)] at h
    cases h
  unfold ReadOutcome.round
  rw [hread, h]
  rfl

def Handled (o : ReadOutcome) : Prop :=
  o = .eintr ∨ exists resp, o.unpacked = some resp

theorem Retryable.handled {o : ReadOutcome} (h : o.Retryable) :
    Handled o := by
  cases h with
  | inl heintr => exact Or.inl heintr
  | inr hwait =>
      rcases hwait with ⟨resp, hresp, _⟩
      exact Or.inr ⟨resp, hresp⟩

theorem round_of_retryable {o : ReadOutcome} (h : o.Retryable) :
    o.round = .reading := by
  cases h with
  | inl heintr =>
      rw [heintr]
      rfl
  | inr hwait =>
      rcases hwait with ⟨resp, hresp, hfinal⟩
      rw [round_of_unpacked hresp]
      exact if_pos (not_not.1 hfinal)

theorem round_of_final {o : ReadOutcome} {resp : Response}
    (hresp : o.unpacked = some resp) (hfinal : resp.Final) :
    o.round = .returned resp := by
  rw [round_of_unpacked hresp]
  exact if_neg hfinal

theorem handled_iff (o : ReadOutcome) :
    ((o.round = .reading <-> o.Retryable) ∧ o.inspected ≠ some none) <->
      Handled o := by
  cases hunpacked : o.unpacked with
  | some resp =>
      refine iff_of_true ⟨?_, ?_⟩ (Or.inr ⟨resp, hunpacked⟩)
      · by_cases hfinal : resp.Final
        · rw [round_of_final hunpacked hfinal]
          refine iff_of_false nofun ?_
          rintro (rfl | ⟨resp', hresp', hwait⟩)
          · cases hunpacked
          · rw [hunpacked] at hresp'
            cases hresp'
            exact hwait hfinal
        · have hretry : o.Retryable := Or.inr ⟨resp, hunpacked, hfinal⟩
          exact iff_of_true (round_of_retryable hretry) hretry
      · unfold inspected
        rw [hunpacked]
        split <;> nofun
  | none =>
      have hretry : o.Retryable <-> o = .eintr := by
        simp [Retryable, hunpacked]
      have hhandled : Handled o <-> o = .eintr := by
        simp [Handled, hunpacked]
      rw [hretry, hhandled]
      unfold ReadOutcome.round inspected
      cases hfailed : o.failed with
      | true => simp
      | false =>
          have hne : o ≠ .eintr := by
            rintro rfl
            cases hfailed
          simp [hunpacked, hne]

/-!
## All reads
-/

theorem chanRecv_succ {outcomes : Nat -> ReadOutcome} {n : Nat}
    (h : chanRecv outcomes n = .reading) :
    chanRecv outcomes (n + 1) = (outcomes n).round := by
  rw [chanRecv, h]

theorem reading_of_succ {outcomes : Nat -> ReadOutcome} {n : Nat}
    (h : chanRecv outcomes (n + 1) = .reading) :
    chanRecv outcomes n = .reading := by
  rw [chanRecv] at h
  split at h
  case h_1 hn => exact hn
  case h_2 => exact h

theorem reading_of_retryable {outcomes : Nat -> ReadOutcome} {n : Nat}
    (h : forall m, m < n -> (outcomes m).Retryable) :
    chanRecv outcomes n = .reading := by
  induction n with
  | zero => rfl
  | succ n ih =>
      have hn := ih fun m hm => h m (Nat.lt_succ_of_lt hm)
      rw [chanRecv_succ hn]
      exact round_of_retryable (h n (Nat.lt_succ_self n))

/-- The first message that is not `WAIT_NEXT` is returned. -/
theorem chanRecv_returns {outcomes : Nat -> ReadOutcome} {n : Nat}
    (h : forall m, m < n -> (outcomes m).Retryable) {resp : Response}
    (hresp : (outcomes n).unpacked = some resp) (hfinal : resp.Final) :
    chanRecv outcomes (n + 1) = .returned resp := by
  rw [chanRecv_succ (reading_of_retryable h)]
  exact round_of_final hresp hfinal

/-- The first outcome that calls for no other read is a message. -/
def MessageFirst (outcomes : Nat -> ReadOutcome) : Prop :=
  forall n, (forall m, m < n -> (outcomes m).Retryable) ->
    outcomes n = .eintr ∨ exists resp, (outcomes n).unpacked = some resp

theorem retryable_of_reading {outcomes : Nat -> ReadOutcome}
    (h : MessageFirst outcomes) {n : Nat}
    (hn : chanRecv outcomes n = .reading) :
    forall m, m < n -> (outcomes m).Retryable := by
  induction n with
  | zero =>
      intro m hm
      cases hm
  | succ n ih =>
      have hbefore := ih (reading_of_succ hn)
      have hlast := ((handled_iff (outcomes n)).2 (h n hbefore)).left
      rw [chanRecv_succ (reading_of_succ hn)] at hn
      intro m hm
      rcases Nat.lt_succ_iff_lt_or_eq.1 hm with hlt | rfl
      · exact hbefore m hlt
      · exact hlast.1 hn

/-- What `chan_recv` should do with a sequence of outcomes. -/
structure HandlesAll (outcomes : Nat -> ReadOutcome) : Prop where
  retries : forall n, chanRecv outcomes n = .reading ->
    (chanRecv outcomes (n + 1) = .reading <-> (outcomes n).Retryable)
  stops : forall n, chanRecv outcomes n = .reading ->
    (exists errno, outcomes n = .error errno) ∨ outcomes n = .eof ->
      chanRecv outcomes (n + 1) ≠ .reading
  inspects : forall n, chanRecv outcomes n = .reading ->
    (outcomes n).inspected ≠ some none

theorem not_retryable {o : ReadOutcome}
    (h : (exists errno, o = .error errno) ∨ o = .eof) : ¬ o.Retryable := by
  rintro (heintr | ⟨resp, hresp, _⟩)
  · rcases h with ⟨errno, rfl⟩ | rfl
    · cases heintr
    · cases heintr
  · rcases h with ⟨errno, rfl⟩ | rfl
    · cases hresp
    · cases hresp

/-- Every read is treated as it should be exactly if the first outcome that is
neither `EINTR` nor a `WAIT_NEXT` message is a message that can be unpacked. -/
theorem handlesAll_iff (outcomes : Nat -> ReadOutcome) :
    HandlesAll outcomes <-> MessageFirst outcomes := by
  constructor
  case mp =>
    intro h n hall
    have hn := reading_of_retryable hall
    have hretries := h.retries n hn
    rw [chanRecv_succ hn] at hretries
    exact (handled_iff (outcomes n)).1 ⟨hretries, h.inspects n hn⟩
  case mpr =>
    intro h
    have hround : forall n, chanRecv outcomes n = .reading ->
        (chanRecv outcomes (n + 1) = .reading <->
          (outcomes n).Retryable) ∧ (outcomes n).inspected ≠ some none := by
      intro n hn
      rw [chanRecv_succ hn]
      exact (handled_iff (outcomes n)).2 (h n (retryable_of_reading h hn))
    constructor
    case retries => exact fun n hn => (hround n hn).left
    case inspects => exact fun n hn => (hround n hn).right
    case stops =>
      intro n hn hend hagain
      exact not_retryable hend ((hround n hn).left.1 hagain)

/-- An error that stays makes the loop run for ever, and the end of the
connection makes it look at a null pointer. -/
theorem error_spins_eof_crashes :
    ((forall n, chanRecv (fun _ => .error 104) n = .reading) ∧
        ¬ HandlesAll fun _ => .error 104) ∧
      chanRecv (fun _ => .eof) 1 = .crashed ∧
        ¬ HandlesAll fun _ => .eof := by
  refine ⟨⟨?_, ?_⟩, rfl, ?_⟩
  · intro n
    induction n with
    | zero => rfl
    | succ n ih =>
        rw [chanRecv_succ ih]
        rfl
  · intro h
    exact h.stops 0 rfl (Or.inl ⟨104, rfl⟩) rfl
  · intro h
    exact h.inspects 0 rfl rfl

/-!
## The messages of a channel
-/

/-- The model of a channel takes one message of the loop as a step. -/
theorem stepRecv_eq_round {ι : Type} [DecidableEq ι] (s : Channel ι) {c : ι}
    {k : Nat} {r : Reply} {rest : List Reply}
    (hout : s.outstanding c = some k) (hmsg : s.toClient = r :: rest) :
    s.stepRecv c =
      match (ReadOutcome.message (some r.resp)).round with
      | .crashed => none
      | .reading => some { s with toClient := rest }
      | .returned _ =>
          some
            { s with
              toClient := rest
              outstanding := Function.update s.outstanding c none
              returned := s.returned ++ [(c, r)] } := by
  have hunpacked : (ReadOutcome.message (some r.resp)).unpacked =
      r.resp.retCode.map fun _ => r.resp := rfl
  unfold Channel.stepRecv
  simp only [hout, hmsg]
  cases hcode : r.resp.retCode with
  | none =>
      have hround : (ReadOutcome.message (some r.resp)).round = .crashed := by
        unfold ReadOutcome.round
        rw [hunpacked, hcode]
        rfl
      simp only [hround]
  | some code =>
      rw [hcode] at hunpacked
      rw [round_of_unpacked hunpacked, hcode]
      cases code <;> rfl

end ChanRecv

end Velox
