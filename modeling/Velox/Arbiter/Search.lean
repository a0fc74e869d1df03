import Velox.Arbiter.Connect
import Velox.Arbiter.Sendto
import Velox.Foundation.Race

/-!
# The search beside the event loop

`Sessions::find` runs on the thread that reads packets and compares the fields
of a session one after another, while the event loop may be writing them; no
lock guards them.  Beside the first `connect` of a session the search looks as
if it were made at once, because `connect` sets the local port last and the
search reads it first.  Beside a later `connect` the search can combine the
port of one peer with the address of another.
-/

namespace Velox

open Foundation

/-!
## The writes of the event loop
-/

/-- An access of the event loop to the four-tuple, or the begin of a call with
the port counter that it finds. -/
inductive TupleStore where
  | call (port : UInt16)
  | faddr (faddr : UInt32)
  | fport (fport : UInt16)
  | bind
  deriving DecidableEq

/-- A session and the port counter after an access; the event loop alone
writes the local port, so its test and store are one access. -/
def Session.store (s : Session × UInt16) : TupleStore -> Session × UInt16
  | .call port => (s.1, port)
  | .faddr faddr => ({ s.1 with faddr := faddr }, s.2)
  | .fport fport => ({ s.1 with fport := fport }, s.2)
  | .bind => s.1.bind s.2

namespace BindingOp

def stores (isTcp : Bool) (port : UInt16) : BindingOp -> List TupleStore
  | .connect faddr fport =>
      [.call port, .faddr faddr, .fport fport, .bind] ++
        bif isTcp then [.bind] else []
  | .send _ => [.call port, .bind]
  | .sendTo faddr fport _ =>
      [.call port, .bind] ++
        bif isTcp then []
        else [.faddr faddr, .fport fport, .bind, .bind, .faddr 0, .fport 0]

end BindingOp

theorem TcpSession.send_port (s : TcpSession) (port : UInt16) (buf : Bytes) :
    (s.send port buf).port = (s.toSession.bind port).2 := by
  have hcase := s.send_cases port buf
  generalize s.send port buf = result at hcase ⊢
  cases hcase with
  | syn _ => rfl
  | data _ => rfl
  | other _ _ => rfl

/-- Made one after another, the accesses are the operation. -/
theorem Pcb.perform_eq_stores (pcb : Pcb) (port counter : UInt16)
    (op : BindingOp) :
    ((pcb.perform port op).1.session, (pcb.perform port op).2) =
      (op.stores pcb.isTcp port).foldl Session.store
        (pcb.session, counter) := by
  cases pcb with
  | udp s =>
      cases op with
      | connect faddr fport => rfl
      | send buf => rfl
      | sendTo faddr fport buf =>
          have hsent := UdpSession.sendTo_eq s port faddr fport buf
          simp only [perform, session, isTcp, hsent.1, hsent.2,
            BindingOp.stores, cond_false, List.cons_append, List.nil_append,
            List.foldl_cons, List.foldl_nil, Session.store, Session.connect,
            Session.disconnect]
  | tcp s =>
      cases op with
      | connect faddr fport =>
          exact Prod.ext (TcpSession.send_toSession _ _ [])
            (TcpSession.send_port _ _ [])
      | send buf =>
          exact Prod.ext (s.send_toSession port buf) (s.send_port port buf)
      | sendTo faddr fport buf =>
          exact Prod.ext (s.send_toSession port buf) (s.send_port port buf)

/-!
## The reads of the search
-/

/-- The four-tuple of a packet; its source is the foreign end. -/
structure Target where
  faddr : UInt32
  fport : UInt16
  laddr : UInt32
  lport : UInt16

/-- Where the search is in its comparison with one session, and the score so
far: `continue` is `passed`. -/
inductive Reader where
  | lport
  | fport (accum : Int)
  | fportAgain (accum : Int)
  | faddr (accum : Int)
  | laddr (accum : Int)
  | found (accum : Int)
  | passed
  deriving DecidableEq

namespace Target

variable (p : Target)

/-- One read.  A foreign port that is set is read twice. -/
def read (s : Session) : Reader -> Reader
  | .lport => if s.lport ≠ p.lport then .passed else .fport 1
  | .fport n => if s.fport ≠ 0 then .fportAgain n else .faddr n
  | .fportAgain n => if s.fport = p.fport then .faddr (n + 1) else .passed
  | .faddr n =>
      if Sessions.inAddrMatch s.faddr p.faddr = -1 then .passed
      else .laddr (n + Sessions.inAddrMatch s.faddr p.faddr)
  | .laddr n =>
      if Sessions.inAddrMatch s.laddr p.laddr = -1 then .passed
      else .found (n + Sessions.inAddrMatch s.laddr p.laddr)
  | .found n => .found n
  | .passed => .passed

def accum (s : Session) : Option Int :=
  Sessions.accum s p.faddr p.fport p.laddr p.lport

def outcome : Option Int -> Reader
  | none => .passed
  | some n => .found n

theorem read_outcome (s : Session) (score : Option Int) :
    p.read s (outcome score) = outcome score := by
  cases score with
  | none => rfl
  | some n => rfl

theorem iterate_read_outcome (s : Session) (score : Option Int) (k : Nat) :
    (p.read s)^[k] (outcome score) = outcome score :=
  Function.iterate_fixed (p.read_outcome s score) k

theorem iterate_read_laddr (s : Session) (n : Int) (k : Nat) :
    (p.read s)^[k + 1] (.laddr n) =
      outcome (if Sessions.inAddrMatch s.laddr p.laddr = -1 then none
        else some (n + Sessions.inAddrMatch s.laddr p.laddr)) := by
  have hread : p.read s (.laddr n) =
      outcome (if Sessions.inAddrMatch s.laddr p.laddr = -1 then none
        else some (n + Sessions.inAddrMatch s.laddr p.laddr)) :=
    (apply_ite outcome _ none (some _)).symm
  rw [Function.iterate_succ_apply, hread, iterate_read_outcome]

theorem iterate_read_faddr (s : Session) (n : Int) (k : Nat) :
    (p.read s)^[k + 2] (.faddr n) =
      outcome (if Sessions.inAddrMatch s.faddr p.faddr = -1 then none
        else if Sessions.inAddrMatch s.laddr p.laddr = -1 then none
        else some (n + Sessions.inAddrMatch s.faddr p.faddr +
          Sessions.inAddrMatch s.laddr p.laddr)) := by
  rw [Function.iterate_succ_apply, read]
  split
  · exact p.iterate_read_outcome s none (k + 1)
  · exact p.iterate_read_laddr s _ k

theorem iterate_read (s : Session) :
    (p.read s)^[5] .lport = outcome (p.accum s) := by
  unfold accum Sessions.accum
  rw [Function.iterate_succ_apply, read]
  split
  · exact p.iterate_read_outcome s none 4
  · rw [Function.iterate_succ_apply, read]
    by_cases hzero : s.fport = 0
    · have hother : ¬ (s.fport ≠ 0 ∧ s.fport ≠ p.fport) :=
        fun h => h.1 hzero
      rw [if_neg (not_not.mpr hzero), if_neg hother,
        if_neg (not_not.mpr hzero)]
      exact p.iterate_read_faddr s 1 1
    · rw [if_pos hzero, Function.iterate_succ_apply, read]
      by_cases hfport : s.fport = p.fport
      · have hother : ¬ (s.fport ≠ 0 ∧ s.fport ≠ p.fport) :=
          fun h => h.2 hfport
        rw [if_pos hfport, if_neg hother, if_pos hzero]
        exact p.iterate_read_faddr s (1 + 1) 0
      · rw [if_neg hfport, if_pos ⟨hzero, hfport⟩]
        exact p.iterate_read_outcome s none 2

theorem accum_of_iterate_read {s : Session} {k : Nat} {n : Int}
    (h : (p.read s)^[k] .lport = .found n) : p.accum s = some n := by
  have hend : outcome (p.accum s) = .found n := by
    rw [← p.iterate_read_outcome s (p.accum s) k, ← p.iterate_read s,
      ← Function.iterate_add_apply, Nat.add_comm,
      Function.iterate_add_apply, h]
    exact p.iterate_read_outcome s (some n) 5
  cases hscore : p.accum s with
  | none =>
      rw [hscore] at hend
      cases hend
  | some m =>
      rw [hscore] at hend
      cases hend
      rfl

def look (s : Session × UInt16) (point : Reader) : Reader :=
  p.read s.1 point

def search (r : Race (Session × UInt16) TupleStore Reader) (side : Side) :
    Option (Race (Session × UInt16) TupleStore Reader) :=
  r.step Session.store p.look side

end Target

def callStores (isTcp : Bool) (calls : List (UInt16 × BindingOp)) :
    List TupleStore :=
  calls.flatMap fun c => c.2.stores isTcp c.1

/-!
## Beside the first `connect`
-/

def TupleStore.Quiet : TupleStore -> Prop
  | .call _ | .bind => True
  | .faddr _ | .fport _ => False

def BindingOp.setsPeer (isTcp : Bool) : BindingOp -> Bool
  | .connect _ _ => true
  | .send _ => false
  | .sendTo _ _ _ => !isTcp

theorem BindingOp.quiet_stores {isTcp : Bool} {op : BindingOp}
    (h : op.setsPeer isTcp = false) (port : UInt16) :
    forall w, w ∈ op.stores isTcp port -> w.Quiet := by
  have hsend : forall w, w ∈ [TupleStore.call port, .bind] -> w.Quiet :=
    List.forall_mem_cons.mpr ⟨trivial, List.forall_mem_singleton.mpr trivial⟩
  cases op with
  | connect faddr fport => cases h
  | send buf => exact hsend
  | sendTo faddr fport buf =>
      cases isTcp with
      | false => cases h
      | true => exact hsend

theorem Session.store_quiet {s : Session × UInt16} (hbound : s.1.lport ≠ 0)
    {w : TupleStore} (hw : w.Quiet) : (Session.store s w).1 = s.1 := by
  cases w with
  | call port => rfl
  | faddr faddr => exact absurd hw id
  | fport fport => exact absurd hw id
  | bind =>
      rw [Session.store, Session.bind_of_bound hbound]

/-- The accesses of the first `connect` and of what follows without touching
the foreign end. -/
def Publishes (faddr : UInt32) (fport : UInt16) (ws : List TupleStore) :
    Prop :=
  exists port rest, ws = .call port :: .faddr faddr :: .fport fport :: rest ∧
    forall w, w ∈ rest -> w.Quiet

theorem publishes_callStores {isTcp : Bool} {rest : List (UInt16 × BindingOp)}
    (hrest : forall c, c ∈ rest -> c.2.setsPeer isTcp = false)
    (port : UInt16) (faddr : UInt32) (fport : UInt16) :
    Publishes faddr fport
      (callStores isTcp ((port, .connect faddr fport) :: rest)) := by
  refine ⟨port, .bind :: (bif isTcp then [.bind] else []) ++
    callStores isTcp rest, ?_, ?_⟩
  · rw [callStores, List.flatMap_cons]
    rfl
  · refine List.forall_mem_append.mpr ⟨?_, ?_⟩
    · refine List.forall_mem_cons.mpr ⟨trivial, ?_⟩
      cases isTcp with
      | false => exact List.forall_mem_nil _
      | true => exact List.forall_mem_singleton.mpr trivial
    · intro w hw
      rcases List.mem_flatMap.mp hw with ⟨c, hc, hmem⟩
      exact BindingOp.quiet_stores (hrest c hc) c.1 w hmem

/-- The local port is set after the foreign end, so what comes after it leaves
the session as it is. -/
theorem Publishes.quiet_of_bound {faddr : UInt32} {fport : UInt16}
    {ws done : List TupleStore} {w : TupleStore} {s : Session × UInt16}
    (h : Publishes faddr fport ws) (hfresh : s.1.lport = 0)
    (hdone : done ++ [w] <+: ws)
    (hbound : (done.foldl Session.store s).1.lport ≠ 0) : w.Quiet := by
  rcases h with ⟨port, rest, rfl, hquiet⟩
  rcases done with _ | ⟨a, _ | ⟨b, _ | ⟨c, more⟩⟩⟩
  · exact absurd hfresh hbound
  · rcases List.cons_prefix_cons.mp hdone with ⟨rfl, _⟩
    exact absurd hfresh hbound
  · rcases List.cons_prefix_cons.mp hdone with ⟨rfl, htail₁⟩
    rcases List.cons_prefix_cons.mp htail₁ with ⟨rfl, _⟩
    exact absurd hfresh hbound
  · rcases List.cons_prefix_cons.mp hdone with ⟨rfl, htail₁⟩
    rcases List.cons_prefix_cons.mp htail₁ with ⟨rfl, htail₂⟩
    rcases List.cons_prefix_cons.mp htail₂ with ⟨rfl, htail₃⟩
    exact hquiet w (htail₃.subset (List.mem_append_right more
      List.mem_cons_self))

namespace Target

variable {p : Target}

/-- The search has not begun, has given up, or stands where a search of the
session as it is now would. -/
def AtOnce (p : Target) (s : Session × UInt16) (done : List TupleStore)
    (point : Reader) : Prop :=
  point = .passed ∨ point = .lport ∨
    ((done.foldl Session.store s).1.lport ≠ 0 ∧ exists k,
      (p.read (done.foldl Session.store s).1)^[k] .lport = point)

theorem atOnce_read {s : Session × UInt16} (hport : p.lport ≠ 0)
    {done : List TupleStore} {point : Reader} (h : p.AtOnce s done point) :
    p.AtOnce s done (p.read (done.foldl Session.store s).1 point) := by
  rcases h with rfl | rfl | ⟨hbound, k, rfl⟩
  · exact Or.inl rfl
  · by_cases hlport : (done.foldl Session.store s).1.lport = p.lport
    · exact Or.inr (Or.inr ⟨hlport ▸ hport, 1, rfl⟩)
    · exact Or.inl (if_pos hlport)
  · exact Or.inr (Or.inr ⟨hbound, k + 1, Function.iterate_succ_apply' _ _ _⟩)

theorem keeps_atOnce {s : Session × UInt16} {faddr : UInt32} {fport : UInt16}
    {ws : List TupleStore} (hws : Publishes faddr fport ws)
    (hfresh : s.1.lport = 0) (hport : p.lport ≠ 0) :
    Race.Keeps Session.store p.look s ws (p.AtOnce s) where
  read _ _ _ h := atOnce_read hport h
  write := by
    intro done w point hdone h
    rcases h with rfl | rfl | ⟨hbound, k, rfl⟩
    · exact Or.inl rfl
    · exact Or.inr (Or.inl rfl)
    · have hsame : ((done ++ [w]).foldl Session.store s).1 =
          (done.foldl Session.store s).1 := by
        rw [List.foldl_append]
        exact Session.store_quiet hbound
          (hws.quiet_of_bound hfresh hdone hbound)
      refine Or.inr (Or.inr ?_)
      rw [hsame]
      exact ⟨hbound, k, rfl⟩

/-- However the search of a packet interleaves with the first `connect` of a
session and with what it sends afterwards, the session is found only with the
score that a search made at once gives the session at the end.  A packet to
port zero is left out, since it finds a session that is not bound. -/
theorem found_beside_first_connect {isTcp : Bool} {laddr faddr : UInt32}
    {counter port fport : UInt16} {rest : List (UInt16 × BindingOp)}
    (hrest : forall c, c ∈ rest -> c.2.setsPeer isTcp = false)
    (hport : p.lport ≠ 0) {schedule : List Side}
    {r : Race (Session × UInt16) TupleStore Reader}
    (hrun : run p.search
      ⟨(Session.create laddr, counter),
        callStores isTcp ((port, .connect faddr fport) :: rest), .lport⟩
      schedule = some r)
    {n : Int} (hfound : r.point = .found n) :
    p.accum r.state.1 = some n := by
  have hkeeps := keeps_atOnce (s := (Session.create laddr, counter))
    (publishes_callStores hrest port faddr fport) rfl hport
  rcases hkeeps.run (Or.inr (Or.inl rfl)) hrun with ⟨done, _, hstate, hsaw⟩
  rw [hfound] at hsaw
  rcases hsaw with hpassed | hlport | ⟨_, k, hread⟩
  · cases hpassed
  · cases hlport
  · rw [hstate]
    exact p.accum_of_iterate_read hread

def answer : Target where
  faddr := 2
  fport := 5
  laddr := 1
  lport := (nextAvailPort 1024).1

def besideConnect : List Side :=
  [.writer, .writer, .writer, .writer, .reader, .reader, .writer, .reader,
    .reader, .reader]

theorem found_beside_connect_answer :
    exists r, run answer.search
        ⟨(Session.create 1, 0), callStores true [(1024, .connect 2 5)],
          .lport⟩ besideConnect = some r ∧
      r.point = .found 4 ∧ answer.accum r.state.1 = some 4 := by
  have hruns : exists r, run answer.search
      ⟨(Session.create 1, 0), callStores true [(1024, .connect 2 5)],
        .lport⟩ besideConnect = some r ∧ r.point = .found 4 := ⟨_, rfl, rfl⟩
  rcases hruns with ⟨r, hrun, hfound⟩
  exact ⟨r, hrun, hfound, found_beside_first_connect
    (fun _ hc => absurd hc List.not_mem_nil) (by decide) hrun hfound⟩

/-!
## Beside any calls
-/

def PortPasses (p : Target) (s : Session) : Prop :=
  s.fport = 0 ∨ s.fport = p.fport

def AddrPasses (p : Target) (s : Session) : Prop :=
  s.faddr = 0 ∨ s.faddr = p.faddr

def LocalPasses (p : Target) (s : Session) : Prop :=
  s.laddr = 0 ∨ s.laddr = p.laddr

/-- What a search has seen: the ports and the addresses have passed one after
another, each at a time of its own. -/
def Seen (p : Target) (s : Session × UInt16) (done : List TupleStore) :
    Reader -> Prop
  | .lport | .passed => True
  | .fport _ | .fportAgain _ => exists u, u <+: done ∧
      (u.foldl Session.store s).1.lport = p.lport
  | .faddr _ => exists u v, u <+: v ∧ v <+: done ∧
      (u.foldl Session.store s).1.lport = p.lport ∧
      p.PortPasses (v.foldl Session.store s).1
  | .laddr _ => exists u v x, u <+: v ∧ v <+: x ∧ x <+: done ∧
      (u.foldl Session.store s).1.lport = p.lport ∧
      p.PortPasses (v.foldl Session.store s).1 ∧
      p.AddrPasses (x.foldl Session.store s).1
  | .found _ => exists u v x, u <+: v ∧ v <+: x ∧ x <+: done ∧
      (u.foldl Session.store s).1.lport = p.lport ∧
      p.PortPasses (v.foldl Session.store s).1 ∧
      p.AddrPasses (x.foldl Session.store s).1 ∧ p.LocalPasses s.1

theorem Seen.mono {s : Session × UInt16} {done more : List TupleStore}
    {point : Reader} (h : p.Seen s done point) (hmore : done <+: more) :
    p.Seen s more point := by
  cases point with
  | lport => trivial
  | passed => trivial
  | fport n =>
      rcases h with ⟨u, hu, hlport⟩
      exact ⟨u, hu.trans hmore, hlport⟩
  | fportAgain n =>
      rcases h with ⟨u, hu, hlport⟩
      exact ⟨u, hu.trans hmore, hlport⟩
  | faddr n =>
      rcases h with ⟨u, v, huv, hv, hseen⟩
      exact ⟨u, v, huv, hv.trans hmore, hseen⟩
  | laddr n =>
      rcases h with ⟨u, v, x, huv, hvx, hx, hseen⟩
      exact ⟨u, v, x, huv, hvx, hx.trans hmore, hseen⟩
  | found n =>
      rcases h with ⟨u, v, x, huv, hvx, hx, hseen⟩
      exact ⟨u, v, x, huv, hvx, hx.trans hmore, hseen⟩

theorem laddr_foldl_store (s : Session × UInt16) (ws : List TupleStore) :
    (ws.foldl Session.store s).1.laddr = s.1.laddr := by
  induction ws generalizing s with
  | nil => rfl
  | cons w rest ih =>
      rw [List.foldl_cons, ih]
      cases w with
      | bind => exact s.1.laddr_bind s.2
      | _ => rfl

theorem seen_read {s : Session × UInt16} {done : List TupleStore}
    {point : Reader} (h : p.Seen s done point) :
    p.Seen s done (p.read (done.foldl Session.store s).1 point) := by
  have hladdr := laddr_foldl_store s done
  generalize hnow : (done.foldl Session.store s).1 = now at hladdr ⊢
  cases point with
  | lport =>
      by_cases hlport : now.lport = p.lport
      · rw [read, if_neg (not_not.mpr hlport)]
        exact ⟨done, List.prefix_rfl, hnow ▸ hlport⟩
      · rw [read, if_pos hlport]
        trivial
  | fport n =>
      rcases h with ⟨u, hu, hlport⟩
      by_cases hzero : now.fport = 0
      · rw [read, if_neg (not_not.mpr hzero)]
        exact ⟨u, done, hu, List.prefix_rfl, hlport, hnow ▸ Or.inl hzero⟩
      · rw [read, if_pos hzero]
        exact ⟨u, hu, hlport⟩
  | fportAgain n =>
      rcases h with ⟨u, hu, hlport⟩
      by_cases hfport : now.fport = p.fport
      · rw [read, if_pos hfport]
        exact ⟨u, done, hu, List.prefix_rfl, hlport, hnow ▸ Or.inr hfport⟩
      · rw [read, if_neg hfport]
        trivial
  | faddr n =>
      rcases h with ⟨u, v, huv, hv, hlport, hfport⟩
      by_cases hfaddr : Sessions.inAddrMatch now.faddr p.faddr = -1
      · rw [read, if_pos hfaddr]
        trivial
      · rw [read, if_neg hfaddr]
        exact ⟨u, v, done, huv, hv, List.prefix_rfl, hlport, hfport,
          hnow ▸ Sessions.inAddrMatch_ne_iff.mp hfaddr⟩
  | laddr n =>
      rcases h with ⟨u, v, x, huv, hvx, hx, hlport, hfport, hfaddr⟩
      by_cases hmatch : Sessions.inAddrMatch now.laddr p.laddr = -1
      · rw [read, if_pos hmatch]
        trivial
      · rw [read, if_neg hmatch]
        refine ⟨u, v, x, huv, hvx, hx, hlport, hfport, hfaddr, ?_⟩
        rw [LocalPasses, ← hladdr]
        exact Sessions.inAddrMatch_ne_iff.mp hmatch
  | found n => exact h
  | passed => trivial

theorem keeps_seen (s : Session × UInt16) (ws : List TupleStore) :
    Race.Keeps Session.store p.look s ws (p.Seen s) where
  read _ _ _ h := seen_read h
  write done w _ _ h := h.mono (List.prefix_append done [w])

theorem reaches_faddr {s : Session × UInt16} (h : p.PortPasses s.1)
    (ws : List TupleStore) (n : Int) :
    exists m, Race.Reaches Session.store p.look
      ⟨s, ws, .fport n⟩ ⟨s, ws, .faddr m⟩ := by
  by_cases hzero : s.1.fport = 0
  · exact ⟨n, Race.reaches_get (if_neg (not_not.mpr hzero))⟩
  · have hagain : Race.Reaches Session.store p.look
        ⟨s, ws, .fport n⟩ ⟨s, ws, .fportAgain n⟩ :=
      Race.reaches_get (if_pos hzero)
    exact ⟨n + 1, hagain.trans
      (Race.reaches_get (if_pos (h.resolve_left hzero)))⟩

theorem reaches_fport {s : Session × UInt16} (h : s.1.lport = p.lport)
    (ws : List TupleStore) :
    Race.Reaches Session.store p.look ⟨s, ws, .lport⟩
      ⟨s, ws, .fport 1⟩ :=
  Race.reaches_get (if_neg (not_not.mpr h))

theorem reaches_found {s : Session × UInt16} (hfaddr : p.AddrPasses s.1)
    (hladdr : p.LocalPasses s.1) (ws : List TupleStore) (n : Int) :
    Race.Reaches Session.store p.look ⟨s, ws, .faddr n⟩
      ⟨s, ws, .found (n + Sessions.inAddrMatch s.1.faddr p.faddr +
        Sessions.inAddrMatch s.1.laddr p.laddr)⟩ := by
  have hfirst : p.look s (.faddr n) =
      .laddr (n + Sessions.inAddrMatch s.1.faddr p.faddr) :=
    if_neg (Sessions.inAddrMatch_ne_iff.mpr hfaddr)
  have hlast : p.look s
      (.laddr (n + Sessions.inAddrMatch s.1.faddr p.faddr)) =
      .found (n + Sessions.inAddrMatch s.1.faddr p.faddr +
        Sessions.inAddrMatch s.1.laddr p.laddr) :=
    if_neg (Sessions.inAddrMatch_ne_iff.mpr hladdr)
  exact (Race.reaches_get hfirst).trans (Race.reaches_get hlast)

/-- A search beside the event loop can find the session exactly if the local
port, the foreign port and the foreign address pass at times in this order. -/
theorem found_iff_seen (p : Target) (s : Session × UInt16)
    (ws : List TupleStore) :
    (exists n r, Race.Reaches Session.store p.look
        ⟨s, ws, .lport⟩ r ∧ r.point = .found n) <->
      exists u v x, u <+: v ∧ v <+: x ∧ x <+: ws ∧
        (u.foldl Session.store s).1.lport = p.lport ∧
        p.PortPasses (v.foldl Session.store s).1 ∧
        p.AddrPasses (x.foldl Session.store s).1 ∧ p.LocalPasses s.1 := by
  constructor
  · rintro ⟨n, r, ⟨schedule, hrun⟩, hfound⟩
    have hstart : p.Seen s [] .lport := trivial
    rcases (keeps_seen s ws).run hstart hrun with ⟨done, hws, _, hseen⟩
    rw [hfound] at hseen
    rcases hseen with ⟨u, v, x, huv, hvx, hx, hall⟩
    exact ⟨u, v, x, huv, hvx, hx.trans ⟨r.writes, hws.symm⟩, hall⟩
  · rintro ⟨u, _, _, ⟨v, rfl⟩, ⟨x, rfl⟩, ⟨rest, rfl⟩, hlport, hfport, hfaddr,
      hladdr⟩
    rw [List.foldl_append] at hfport
    rw [List.foldl_append, List.foldl_append] at hfaddr
    have hlocal : p.LocalPasses (x.foldl Session.store (v.foldl Session.store
        (u.foldl Session.store s))).1 := by
      rw [LocalPasses, laddr_foldl_store, laddr_foldl_store,
        laddr_foldl_store]
      exact hladdr
    rcases reaches_faddr hfport (x ++ rest) 1 with ⟨m, hport⟩
    rw [List.append_assoc, List.append_assoc]
    have hfound := hport.trans ((Race.reaches_put x rest).trans
      (reaches_found hfaddr hlocal rest m))
    have hbegin := (Race.reaches_put u _).trans
      ((reaches_fport hlport _).trans (Race.reaches_put v (x ++ rest)))
    exact ⟨_, _, hbegin.trans hfound, rfl⟩

end Target

/-!
## Beside later calls of `connect`
-/

namespace TupleStore

def portOf : TupleStore -> Option UInt16
  | .fport value => some value
  | _ => none

def addrOf : TupleStore -> Option UInt32
  | .faddr value => some value
  | _ => none

theorem Quiet.portOf_eq_none {w : TupleStore} (h : w.Quiet) :
    w.portOf = none := by
  cases w with
  | fport value => exact absurd h id
  | _ => rfl

theorem Quiet.addrOf_eq_none {w : TupleStore} (h : w.Quiet) :
    w.addrOf = none := by
  cases w with
  | faddr value => exact absurd h id
  | _ => rfl

def AddressFirst (ws : List TupleStore) : Prop :=
  forall v, v <+: ws ->
    (v.filterMap portOf).length <= (v.filterMap addrOf).length

theorem addressFirst_nil : AddressFirst [] := by
  intro v hv
  rw [List.prefix_nil.mp hv]
  exact Nat.le_refl 0

theorem AddressFirst.quiet {ws : List TupleStore} (h : AddressFirst ws)
    {w : TupleStore} (hw : w.Quiet) : AddressFirst (w :: ws) := by
  intro v hv
  rcases List.prefix_cons_iff.mp hv with rfl | ⟨t, rfl, ht⟩
  · exact Nat.le_refl 0
  · rw [List.filterMap_cons_none hw.portOf_eq_none,
      List.filterMap_cons_none hw.addrOf_eq_none]
    exact h t ht

theorem AddressFirst.pair {ws : List TupleStore} (h : AddressFirst ws)
    (a : UInt32) (b : UInt16) :
    AddressFirst (.faddr a :: .fport b :: ws) := by
  intro v hv
  rcases List.prefix_cons_iff.mp hv with rfl | ⟨t, rfl, ht⟩
  · exact Nat.le_refl 0
  · rcases List.prefix_cons_iff.mp ht with rfl | ⟨t', rfl, ht'⟩
    · exact Nat.zero_le _
    · exact Nat.succ_le_succ (h t' ht')

end TupleStore

namespace Session

theorem lport_foldl_store {s : Session × UInt16} (hbound : s.1.lport ≠ 0)
    (ws : List TupleStore) :
    (ws.foldl store s).1.lport = s.1.lport := by
  induction ws generalizing s with
  | nil => rfl
  | cons w rest ih =>
      have hsame : (store s w).1.lport = s.1.lport := by
        cases w with
        | bind => rw [store, bind_of_bound hbound]
        | _ => rfl
      rw [List.foldl_cons, ih (hsame ▸ hbound), hsame]

end Session

def connects (calls : List (UInt16 × SockaddrIn)) :
    List (UInt16 × BindingOp) :=
  calls.map fun c => (c.1, .connect c.2.sinAddr c.2.sinPort)

def peersOf (s : Session) (calls : List (UInt16 × SockaddrIn)) :
    List (UInt32 × UInt16) :=
  (s.faddr, s.fport) :: calls.map fun c => (c.2.sinAddr, c.2.sinPort)

section Connects

variable (isTcp : Bool)

theorem callStores_connects_cons (c : UInt16 × SockaddrIn)
    (calls : List (UInt16 × SockaddrIn)) :
    callStores isTcp (connects (c :: calls)) =
      .call c.1 :: .faddr c.2.sinAddr :: .fport c.2.sinPort :: .bind ::
        ((bif isTcp then [.bind] else []) ++
          callStores isTcp (connects calls)) := by
  rw [callStores, connects, List.map_cons, List.flatMap_cons]
  rfl

theorem addressFirst_connects (calls : List (UInt16 × SockaddrIn)) :
    TupleStore.AddressFirst (callStores isTcp (connects calls)) := by
  induction calls with
  | nil => exact TupleStore.addressFirst_nil
  | cons c rest ih =>
      rw [callStores_connects_cons]
      have hbind : TupleStore.bind.Quiet := trivial
      have hcall : (TupleStore.call c.1).Quiet := trivial
      cases isTcp with
      | false => exact ((ih.quiet hbind).pair _ _).quiet hcall
      | true => exact (((ih.quiet hbind).quiet hbind).pair _ _).quiet hcall

theorem callStores_isPrefix {first calls : List (UInt16 × SockaddrIn)}
    (h : first <+: calls) :
    callStores isTcp (connects first) <+:
      callStores isTcp (connects calls) := by
  rcases h with ⟨rest, rfl⟩
  rw [callStores, callStores, connects, connects, List.map_append,
    List.flatMap_append]
  exact List.prefix_append _ _

end Connects

/-- One half of the foreign end, the address or the port: the field of a
session, what an access writes to it, and what it is of a peer. -/
structure Half (value : Type) where
  field : Session -> value
  written : TupleStore -> Option value
  ofPeer : UInt32 × UInt16 -> value
  field_store : forall s w,
    field (Session.store s w).1 = (written w).getD (field s.1)
  ofPeer_session : forall s, ofPeer (s.faddr, s.fport) = field s
  written_connect : forall isTcp port faddr fport,
    ((BindingOp.connect faddr fport).stores isTcp port).filterMap written =
      [ofPeer (faddr, fport)]

namespace Half

def port : Half UInt16 where
  field := Session.fport
  written := TupleStore.portOf
  ofPeer := Prod.snd
  field_store s w := by
    cases w with
    | bind => exact (s.1.bind_foreign s.2).2
    | _ => rfl
  ofPeer_session _ := rfl
  written_connect isTcp _ _ _ := by
    cases isTcp with
    | false => rfl
    | true => rfl

def addr : Half UInt32 where
  field := Session.faddr
  written := TupleStore.addrOf
  ofPeer := Prod.fst
  field_store s w := by
    cases w with
    | bind => exact (s.1.bind_foreign s.2).1
    | _ => rfl
  ofPeer_session _ := rfl
  written_connect isTcp _ _ _ := by
    cases isTcp with
    | false => rfl
    | true => rfl

variable {value : Type} (half : Half value) {isTcp : Bool}
  {s : Session × UInt16} {calls : List (UInt16 × SockaddrIn)}

theorem written_connects (isTcp : Bool)
    (calls : List (UInt16 × SockaddrIn)) :
    (callStores isTcp (connects calls)).filterMap half.written =
      calls.map fun c => half.ofPeer (c.2.sinAddr, c.2.sinPort) := by
  induction calls with
  | nil => rfl
  | cons c rest ih =>
      rw [connects, callStores, List.map_cons, List.flatMap_cons,
        List.filterMap_append, half.written_connect, List.map_cons, ← ih]
      rfl

/-- At any time a half of the foreign end is that of the peer that was written
last. -/
theorem peersOf_written {v : List TupleStore}
    (hv : v <+: callStores isTcp (connects calls)) :
    exists q, (peersOf s.1 calls)[(v.filterMap half.written).length]? =
        some q ∧
      half.ofPeer q = half.field (v.foldl Session.store s).1 := by
  rcases hv with ⟨rest, hws⟩
  have hlast := Race.getElem?_written (fun s => half.field s.1)
    half.field_store s v rest
  have hvalues : half.field s.1 :: (v ++ rest).filterMap half.written =
      (peersOf s.1 calls).map half.ofPeer := by
    rw [hws, half.written_connects, peersOf, List.map_cons, List.map_map,
      half.ofPeer_session]
    rfl
  rw [hvalues, List.getElem?_map] at hlast
  exact Option.map_eq_some_iff.mp hlast

theorem peersOf_take (isTcp : Bool) {i : Nat} {q : UInt32 × UInt16}
    (hq : (peersOf s.1 calls)[i]? = some q) :
    half.field ((callStores isTcp (connects (calls.take i))).foldl
      Session.store s).1 = half.ofPeer q := by
  have hi : i <= calls.length := by
    have hlt := (List.getElem?_eq_some_iff.mp hq).1
    rw [peersOf, List.length_cons, List.length_map] at hlt
    exact Nat.le_of_lt_succ hlt
  rcases half.peersOf_written (s := s) (callStores_isPrefix isTcp
      (List.take_prefix i calls)) with
    ⟨q', hq', hfield⟩
  rw [half.written_connects, List.length_map, List.length_take,
    Nat.min_eq_left hi, hq] at hq'
  cases hq'
  exact hfield.symm

end Half

namespace Target

variable {p : Target}

/-- A search that runs beside any calls of `connect` on a session that is
bound can find it exactly if the packet has the local end of the session, the
port of one of its peers and the address of the same or a later one.  The
packet need not come from any of them. -/
theorem found_beside_connects_iff {s : Session} (hbound : s.lport ≠ 0)
    (isTcp : Bool) (counter : UInt16)
    (calls : List (UInt16 × SockaddrIn)) :
    (exists schedule r n, run p.search
        ⟨(s, counter), callStores isTcp (connects calls), .lport⟩ schedule =
          some r ∧ r.point = .found n) <->
      s.lport = p.lport ∧ (s.laddr = 0 ∨ s.laddr = p.laddr) ∧
        exists (i j : Nat) (q q' : UInt32 × UInt16), i <= j ∧
          (peersOf s calls)[i]? = some q ∧ (peersOf s calls)[j]? = some q' ∧
          (q.2 = 0 ∨ q.2 = p.fport) ∧ (q'.1 = 0 ∨ q'.1 = p.faddr) := by
  have hiff := found_iff_seen p (s, counter)
    (callStores isTcp (connects calls))
  constructor
  · rintro ⟨schedule, r, n, hrun, hfound⟩
    rcases hiff.mp ⟨n, r, ⟨schedule, hrun⟩, hfound⟩ with
      ⟨u, v, x, _, hvx, hx, hlport, hfport, hfaddr, hladdr⟩
    rw [Session.lport_foldl_store hbound] at hlport
    rcases Half.port.peersOf_written (s := (s, counter)) (hvx.trans hx) with
      ⟨q, hq, hport⟩
    rcases Half.addr.peersOf_written (s := (s, counter)) hx with
      ⟨q', hq', haddr⟩
    have hsent : q.2 = (v.foldl Session.store (s, counter)).1.fport := hport
    have hfrom : q'.1 = (x.foldl Session.store (s, counter)).1.faddr := haddr
    refine ⟨hlport, hladdr, _, _, q, q', ?_, hq, hq', ?_, ?_⟩
    · -- The address of a peer is written before its port.
      exact (addressFirst_connects isTcp calls v (hvx.trans hx)).trans
        (hvx.filterMap TupleStore.addrOf).length_le
    · rw [hsent]
      exact hfport
    · rw [hfrom]
      exact hfaddr
  · rintro ⟨hlport, hladdr, i, j, q, q', hij, hq, hq', hfport, hfaddr⟩
    have hvx : calls.take i <+: calls.take j :=
      List.prefix_take_iff.mpr ⟨List.take_prefix i calls,
        (List.length_take_le i calls).trans hij⟩
    have hport : p.PortPasses ((callStores isTcp (connects
        (calls.take i))).foldl Session.store (s, counter)).1 := by
      have hfield : Session.fport _ = q.2 :=
        Half.port.peersOf_take (s := (s, counter)) isTcp hq
      rw [PortPasses, hfield]
      exact hfport
    have haddr : p.AddrPasses ((callStores isTcp (connects
        (calls.take j))).foldl Session.store (s, counter)).1 := by
      have hfield : Session.faddr _ = q'.1 :=
        Half.addr.peersOf_take (s := (s, counter)) isTcp hq'
      rw [AddrPasses, hfield]
      exact hfaddr
    rcases hiff.mpr ⟨[], _, _, List.nil_prefix, callStores_isPrefix isTcp hvx,
        callStores_isPrefix isTcp (List.take_prefix j calls), hlport, hport,
        haddr, hladdr⟩ with
      ⟨n, r, ⟨schedule, hrun⟩, hfound⟩
    exact ⟨schedule, r, n, hrun, hfound⟩

/-- A packet with the port of the first peer and the address of the second. -/
def stranger : Target where
  faddr := 3
  fport := 5
  laddr := 1
  lport := 6

theorem found_beside_connects_stranger :
    exists schedule r n, run stranger.search
      ⟨(⟨2, 5, 1, 6⟩, 0),
        callStores false (connects [(1024, SockaddrIn.inet 3 7)]), .lport⟩
      schedule = some r ∧ r.point = .found n := by
  have hbound : (⟨2, 5, 1, 6⟩ : Session).lport ≠ 0 := by decide
  exact (found_beside_connects_iff hbound false 0 _).mpr
    ⟨rfl, Or.inr rfl, 0, 1, (2, 5), (3, 7), by decide, rfl, rfl, Or.inr rfl,
      Or.inr rfl⟩

end Target

end Velox
