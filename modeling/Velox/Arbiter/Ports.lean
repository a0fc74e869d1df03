import Mathlib.Logic.Function.Iterate
import Velox.Arbiter.RpcDispatch
import Velox.Foundation.Runs

/-!
# Local ports

Every session that is connected or sends gets its local port from the counter
of its protocol.  A run creates, uses and destroys sessions in any order; the
state keeps the counters, the sessions that are left and, as a history, every
port that `nextAvailPort` has returned.
-/

namespace Velox

open Foundation

inductive BindingOp where
  | connect (faddr : UInt32) (fport : UInt16)
  | send (buf : Bytes)
  | sendTo (faddr : UInt32) (fport : UInt16) (buf : Bytes)

namespace Pcb

def create (isTcp : Bool) (laddr uninit : UInt32) : Pcb :=
  bif isTcp then
    .tcp (TcpSession.fresh (Session.create laddr) uninit uninit uninit uninit)
  else .udp (Session.create laddr)

def lport (pcb : Pcb) : UInt16 :=
  pcb.session.lport

/-- An operation, with the counter of the protocol before and after it; a TCP
session has no `send` with an address of its own. -/
def perform (pcb : Pcb) (port : UInt16) (op : BindingOp) : Pcb × UInt16 :=
  match pcb, op with
  | .udp s, .connect faddr fport =>
      (.udp (s.connect port faddr fport).1, (s.connect port faddr fport).2)
  | .udp s, .send buf =>
      (.udp (UdpSession.send s port buf).session,
        (UdpSession.send s port buf).port)
  | .udp s, .sendTo faddr fport buf =>
      (.udp (UdpSession.sendTo s port faddr fport buf).session,
        (UdpSession.sendTo s port faddr fport buf).port)
  | .tcp s, .connect faddr fport =>
      (.tcp (s.connect port faddr fport).session,
        (s.connect port faddr fport).port)
  | .tcp s, .send buf =>
      (.tcp (s.send port buf).session, (s.send port buf).port)
  | .tcp s, .sendTo _ _ buf =>
      (.tcp (s.send port buf).session, (s.send port buf).port)

end Pcb

/-- The results of the calls of `nextAvailPort` that move the counter from one
value to another: each call moves it by one. -/
def portsBetween (port port' : UInt16) : List UInt16 :=
  (List.range (port' - port).toNat).map fun k =>
    (nextAvailPort (port + UInt16.ofNat k)).1

/-- The sessions of the daemon; a destroyed one leaves an empty place. -/
structure PortTable where
  port : Bool -> UInt16
  sessions : List (Option Pcb)
  returned : List UInt16

namespace PortTable

/-- The static counters start at 1024. -/
def init : PortTable where
  port := fun _ => 1024
  sessions := []
  returned := []

inductive Action where
  | create (isTcp : Bool) (laddr uninit : UInt32)
  | perform (i : Nat) (op : BindingOp)
  | recv (i : Nat) (peerAddr : SockaddrIn) (skbuf : Skbuf)
  | destroy (i : Nat)

def session (s : PortTable) (i : Nat) : Option Pcb :=
  (s.sessions[i]?).join

def step (s : PortTable) : Action -> Option PortTable
  | .create isTcp laddr uninit =>
      some { s with
        sessions := s.sessions ++ [some (Pcb.create isTcp laddr uninit)] }
  | .perform i op =>
      (s.session i).map fun pcb =>
        let result := pcb.perform (s.port pcb.isTcp) op
        { port := Function.update s.port pcb.isTcp result.2
          sessions := s.sessions.set i (some result.1)
          returned := s.returned ++
            portsBetween (s.port pcb.isTcp) result.2 }
  | .recv i peerAddr skbuf =>
      (s.session i).map fun pcb =>
        { s with
          sessions := s.sessions.set i (some (pcb.recv peerAddr skbuf).1) }
  | .destroy i => some { s with sessions := s.sessions.set i none }

/-- Every port returned can be used, and bound sessions of one protocol have
different ports. -/
structure Usable (s : PortTable) : Prop where
  nonzero : forall v, v ∈ s.returned -> v ≠ 0
  distinct : forall i j a b, s.session i = some a -> s.session j = some b ->
    i ≠ j -> a.isTcp = b.isTcp -> a.lport ≠ 0 -> b.lport ≠ 0 ->
      a.lport ≠ b.lport

/-- An operation on an unbound session finds the counter of its protocol
below the greatest port. -/
def PortsLeft (s : PortTable) : Action -> Prop
  | .perform i _ =>
      forall pcb, s.session i = some pcb -> pcb.lport = 0 ->
        s.port pcb.isTcp ≠ 65535
  | _ => True

end PortTable

/-!
## Binding once
-/

theorem ntohs_ntohs (v : UInt16) : ntohs (ntohs v) = v :=
  bswap16_bswap16 v

theorem ntohs_inj {v w : UInt16} (h : ntohs v = ntohs w) : v = w := by
  rw [← ntohs_ntohs v, h, ntohs_ntohs]

theorem nextAvailPort_eq_zero_iff (port : UInt16) :
    (nextAvailPort port).1 = 0 <-> port = 65535 := by
  constructor
  · intro h
    have hzero : port + 1 = 0 := ntohs_inj (w := 0) h
    rw [show (65535 : UInt16) = 0 - 1 from rfl, ← hzero]
    simp
  · intro h
    rw [h]
    rfl

namespace Session

theorem bind_of_bound {s : Session} (h : s.lport ≠ 0) (port : UInt16) :
    s.bind port = (s, port) :=
  if_neg h

theorem bind_of_unbound {s : Session} (h : s.lport = 0) (port : UInt16) :
    s.bind port =
      ({ s with lport := (nextAvailPort port).1 }, port + 1) :=
  if_pos h

end Session

/-- What `bind` does to the port of a session and to the counter. -/
def bindPort (bound : UInt16 × UInt16) : UInt16 × UInt16 :=
  if bound.1 = 0 then ((nextAvailPort bound.2).1, bound.2 + 1) else bound

theorem bind_eq_bindPort (s : Session) (port : UInt16) :
    ((s.bind port).1.lport, (s.bind port).2) = bindPort (s.lport, port) := by
  unfold bindPort
  by_cases h : s.lport = 0
  · rw [Session.bind_of_unbound h, if_pos h]
  · rw [Session.bind_of_bound h, if_neg h]

theorem bindPort_iterate_bound {lport : UInt16} (h : lport ≠ 0)
    (port : UInt16) (k : Nat) : bindPort^[k] (lport, port) = (lport, port) := by
  have hfix : bindPort (lport, port) = (lport, port) := if_neg h
  exact Function.iterate_fixed hfix k

theorem bindPort_iterate_unbound {port : UInt16} (h : port ≠ 65535)
    (k : Nat) :
    bindPort^[k + 1] (0, port) = ((nextAvailPort port).1, port + 1) := by
  have hbound : (nextAvailPort port).1 ≠ 0 :=
    fun hzero => h ((nextAvailPort_eq_zero_iff port).1 hzero)
  exact bindPort_iterate_bound hbound (port + 1) k

theorem bindPort_iterate_wrapped (k : Nat) :
    (bindPort^[k + 1] (0, 65535)).2 ≠ 65535 := by
  cases k with
  | zero => decide
  | succ k =>
      have hlater : bindPort^[k + 1 + 1] (0, 65535) = (ntohs 1, 1) :=
        bindPort_iterate_bound (by decide) 1 k
      rw [hlater]
      decide

namespace Pcb

theorem perform_isTcp (pcb : Pcb) (port : UInt16) (op : BindingOp) :
    (pcb.perform port op).1.isTcp = pcb.isTcp := by
  cases pcb with
  | udp s => cases op <;> rfl
  | tcp s => cases op <;> rfl

theorem tcp_send_lport (s : TcpSession) (port : UInt16) (buf : Bytes) :
    ((s.send port buf).session.lport, (s.send port buf).port) =
      bindPort (s.lport, port) := by
  rw [← bind_eq_bindPort]
  have hcase := TcpSession.send_cases s port buf
  generalize s.send port buf = sent at hcase ⊢
  cases hcase with
  | syn hstate => rfl
  | data hstate => rfl
  | other hclosed hestab => rfl

theorem perform_eq_bindPort (pcb : Pcb) (port : UInt16) (op : BindingOp) :
    exists k, ((pcb.perform port op).1.lport, (pcb.perform port op).2) =
      bindPort^[k + 1] (pcb.lport, port) := by
  cases pcb with
  | udp s =>
      cases op with
      | connect faddr fport => exact ⟨0, bind_eq_bindPort _ port⟩
      | send buf => exact ⟨0, bind_eq_bindPort _ port⟩
      | sendTo faddr fport buf =>
          refine ⟨2, ?_⟩
          have hsent := UdpSession.sendTo_eq s port faddr fport buf
          show ((UdpSession.sendTo s port faddr fport buf).session.lport,
              (UdpSession.sendTo s port faddr fport buf).port) =
            bindPort (bindPort (bindPort (s.lport, port)))
          rw [hsent.left, hsent.right, ← bind_eq_bindPort s port,
            ← bind_eq_bindPort { (s.bind port).1 with
              faddr := faddr, fport := fport }, ← bind_eq_bindPort,
            Session.disconnect, Session.connect]
  | tcp s =>
      cases op with
      | connect faddr fport =>
          refine ⟨1, ?_⟩
          show _ = bindPort (bindPort (s.lport, port))
          rw [← bind_eq_bindPort { s.toSession with
            faddr := faddr, fport := fport } port]
          exact tcp_send_lport _ _ []
      | send buf => exact ⟨0, tcp_send_lport s port buf⟩
      | sendTo faddr fport buf => exact ⟨0, tcp_send_lport s port buf⟩

inductive PerformCase (lport port : UInt16) : UInt16 -> UInt16 -> Prop where
  | bound (h : lport ≠ 0) : PerformCase lport port lport port
  | binds (h : lport = 0) (hleft : port ≠ 65535) :
      PerformCase lport port (nextAvailPort port).1 (port + 1)
  | wraps (h : lport = 0) (hlast : port = 65535) (lport' port' : UInt16)
      (hmoved : port' ≠ 65535) : PerformCase lport port lport' port'

theorem perform_cases (pcb : Pcb) (port : UInt16) (op : BindingOp) :
    PerformCase pcb.lport port (pcb.perform port op).1.lport
      (pcb.perform port op).2 := by
  rcases perform_eq_bindPort pcb port op with ⟨k, hk⟩
  by_cases hbound : pcb.lport = 0
  · rw [hbound] at hk ⊢
    by_cases hlast : port = 65535
    · have hmoved := bindPort_iterate_wrapped k
      subst hlast
      rw [← hk] at hmoved
      exact .wraps rfl rfl _ _ hmoved
    · rw [bindPort_iterate_unbound hlast] at hk
      rw [(Prod.mk.inj hk).1, (Prod.mk.inj hk).2]
      exact .binds rfl hlast
  · rw [bindPort_iterate_bound hbound] at hk
    rw [(Prod.mk.inj hk).1, (Prod.mk.inj hk).2]
    exact .bound hbound

theorem recv_lport (pcb : Pcb) (peerAddr : SockaddrIn) (skbuf : Skbuf) :
    (pcb.recv peerAddr skbuf).1.lport = pcb.lport := by
  cases pcb with
  | udp s => rfl
  | tcp s =>
      show (s.recv peerAddr skbuf).1.lport = s.lport
      have hcase := TcpSession.recv_cases s peerAddr skbuf
      generalize s.recv peerAddr skbuf = result at hcase ⊢
      cases hcase with
      | syn hstate => rfl
      | data hstate hlen =>
          rcases TcpSession.readAck_eq s skbuf.head with ⟨una, hread⟩
          show (s.readAck skbuf.head).lport = s.lport
          rw [hread]
      | empty hstate hlen =>
          rcases TcpSession.readAck_eq s skbuf.head with ⟨una, hread⟩
          show (s.readAck skbuf.head).lport = s.lport
          rw [hread]
      | other hsyn hestab => rfl

end Pcb

/-!
## Runs of the table
-/

theorem place_set {l : List (Option Pcb)} {i j : Nat} {x : Option Pcb}
    {y : Pcb} (h : ((l.set i x)[j]?).join = some y) :
    (j = i ∧ x = some y) ∨ (j ≠ i ∧ (l[j]?).join = some y) := by
  by_cases hij : i = j
  · subst hij
    rw [List.getElem?_set_self'] at h
    cases hplace : l[i]? with
    | none =>
        rw [hplace] at h
        cases h
    | some old =>
        rw [hplace] at h
        exact .inl ⟨rfl, h⟩
  · rw [List.getElem?_set_ne hij] at h
    exact .inr ⟨fun hji => hij hji.symm, h⟩

theorem place_append {l : List (Option Pcb)} {j : Nat} {x y : Pcb}
    (h : ((l ++ [some x])[j]?).join = some y) :
    (j = l.length ∧ x = y) ∨ (l[j]?).join = some y := by
  rcases Nat.lt_trichotomy j l.length with hlt | heq | hgt
  · rw [List.getElem?_append_left hlt] at h
    exact .inr h
  · subst heq
    rw [List.getElem?_concat_length] at h
    cases h
    exact .inl ⟨rfl, rfl⟩
  · rw [List.getElem?_eq_none (List.length_append ▸ hgt)] at h
    cases h

theorem mem_portsBetween_succ {port v : UInt16}
    (h : v ∈ portsBetween port (port + 1)) : v = (nextAvailPort port).1 := by
  unfold portsBetween at h
  rw [UInt16.add_comm, UInt16.add_sub_cancel] at h
  cases h with
  | head => simp
  | tail _ hmem => cases hmem

theorem portsBetween_self (port : UInt16) : portsBetween port port = [] := by
  unfold portsBetween
  rw [UInt16.sub_self]
  rfl

theorem zero_mem_portsBetween {port' : UInt16} (h : port' ≠ 65535) :
    0 ∈ portsBetween 65535 port' := by
  have hmoved : 0 < (port' - 65535).toNat := by
    rw [Nat.pos_iff_ne_zero]
    intro hzero
    apply h
    have hdiff : port' - 65535 = 0 := UInt16.toNat_inj.mp hzero
    rw [← UInt16.sub_add_cancel port' 65535, hdiff, UInt16.zero_add]
  refine List.mem_map.2 ⟨0, List.mem_range.2 hmoved, ?_⟩
  decide

theorem toNat_succ_port {port : UInt16} (h : port ≠ 65535) :
    (port + 1).toNat = port.toNat + 1 := by
  have hlt := port.toNat_lt
  have hne : port.toNat ≠ 65535 := fun heq => h (UInt16.toNat_inj.mp heq)
  rw [UInt16.toNat_add]
  show (port.toNat + 1) % 65536 = _
  omega

namespace PortTable

/-- What holds as long as no counter has wrapped: the ports of a protocol do
not exceed its counter, so the next one is new. -/
structure Allocated (s : PortTable) : Prop where
  nonzero : forall v, v ∈ s.returned -> v ≠ 0
  atMost : forall i a, s.session i = some a -> a.lport ≠ 0 ->
    (ntohs a.lport).toNat <= (s.port a.isTcp).toNat
  distinct : forall i j a b, s.session i = some a -> s.session j = some b ->
    i ≠ j -> a.isTcp = b.isTcp -> a.lport ≠ 0 -> b.lport ≠ 0 ->
      a.lport ≠ b.lport

theorem Allocated.usable {s : PortTable} (h : s.Allocated) : s.Usable where
  nonzero := h.nonzero
  distinct := h.distinct

theorem allocated_init : init.Allocated where
  nonzero := nofun
  atMost := fun _ _ hplace => by cases hplace
  distinct := fun _ _ _ _ hplace => by cases hplace

variable {s : PortTable}

theorem Allocated.overwrite (h : s.Allocated) {i : Nat} {x : Option Pcb}
    {port' : Bool -> UInt16} {returned' : List UInt16}
    (hnonzero : forall v, v ∈ returned' -> v ≠ 0)
    (hmono : forall b, (s.port b).toNat <= (port' b).toNat)
    (hatMost : forall a, x = some a -> a.lport ≠ 0 ->
      (ntohs a.lport).toNat <= (port' a.isTcp).toNat)
    (hother : forall a, x = some a -> forall j b, j ≠ i ->
      s.session j = some b -> a.isTcp = b.isTcp -> a.lport ≠ 0 ->
        b.lport ≠ 0 -> a.lport ≠ b.lport) :
    Allocated ⟨port', s.sessions.set i x, returned'⟩ where
  nonzero := hnonzero
  atMost := by
    intro j a hplace hbound
    rcases place_set hplace with ⟨_, hx⟩ | ⟨_, hold⟩
    · exact hatMost a hx hbound
    · exact Nat.le_trans (h.atMost j a hold hbound) (hmono a.isTcp)
  distinct := by
    intro j k a b hj hk hjk hproto ha hb
    rcases place_set hj with ⟨hji, hxa⟩ | ⟨hji, hja⟩
    · rcases place_set hk with ⟨hki, _⟩ | ⟨hki, hkb⟩
      · exact absurd (hji.trans hki.symm) hjk
      · exact hother a hxa k b hki hkb hproto ha hb
    · rcases place_set hk with ⟨_, hxb⟩ | ⟨_, hkb⟩
      · exact (hother b hxb j a hji hja hproto.symm hb ha).symm
      · exact h.distinct j k a b hja hkb hjk hproto ha hb

theorem Allocated.create (h : s.Allocated) (isTcp : Bool)
    (laddr uninit : UInt32) :
    Allocated { s with
      sessions := s.sessions ++ [some (Pcb.create isTcp laddr uninit)] } where
  nonzero := h.nonzero
  atMost := by
    intro j a hplace hbound
    rcases place_append hplace with ⟨_, hnew⟩ | hold
    · subst hnew
      cases isTcp <;> exact absurd rfl hbound
    · exact h.atMost j a hold hbound
  distinct := by
    intro j k a b hj hk hjk hproto ha hb
    rcases place_append hj with ⟨_, hnew⟩ | hja
    · subst hnew
      cases isTcp <;> exact absurd rfl ha
    · rcases place_append hk with ⟨_, hnew⟩ | hkb
      · subst hnew
        cases isTcp <;> exact absurd rfl hb
      · exact h.distinct j k a b hja hkb hjk hproto ha hb

theorem Allocated.same_port (h : s.Allocated) {i : Nat} {pcb pcb' : Pcb}
    (hplace : s.session i = some pcb) (hproto : pcb'.isTcp = pcb.isTcp)
    (hlport : pcb'.lport = pcb.lport) :
    Allocated { s with sessions := s.sessions.set i (some pcb') } := by
  refine h.overwrite h.nonzero (fun _ => Nat.le_refl _) ?_ ?_
  · intro a ha hbound
    cases ha
    rw [hlport] at hbound ⊢
    rw [hproto]
    exact h.atMost i pcb hplace hbound
  · intro a ha j b hji hj hsame hbound hb
    cases ha
    rw [hproto] at hsame
    rw [hlport] at hbound ⊢
    exact h.distinct i j pcb b hplace hj hji.symm hsame hbound hb

theorem Allocated.bind_next (h : s.Allocated) {i : Nat} {pcb' : Pcb}
    (hleft : s.port pcb'.isTcp ≠ 65535)
    (hlport : pcb'.lport = (nextAvailPort (s.port pcb'.isTcp)).1) :
    Allocated
      { port := Function.update s.port pcb'.isTcp (s.port pcb'.isTcp + 1)
        sessions := s.sessions.set i (some pcb')
        returned := s.returned ++
          portsBetween (s.port pcb'.isTcp) (s.port pcb'.isTcp + 1) } := by
  have hnext : (ntohs pcb'.lport).toNat = (s.port pcb'.isTcp).toNat + 1 := by
    rw [hlport]
    show (ntohs (ntohs (s.port pcb'.isTcp + 1))).toNat = _
    rw [ntohs_ntohs, toNat_succ_port hleft]
  refine h.overwrite ?_ ?_ ?_ ?_
  · intro v hv
    rcases List.mem_append.1 hv with hold | hnew
    · exact h.nonzero v hold
    · rw [mem_portsBetween_succ hnew]
      exact fun hzero => hleft ((nextAvailPort_eq_zero_iff _).1 hzero)
  · intro b
    by_cases hb : b = pcb'.isTcp
    · rw [hb, Function.update_self, toNat_succ_port hleft]
      exact Nat.le_succ _
    · rw [Function.update_of_ne hb]
  · intro a ha _
    cases ha
    rw [Function.update_self, toNat_succ_port hleft, hnext]
  · intro a ha j b _ hj hsame _ hb heq
    cases ha
    have hle := h.atMost j b hj hb
    rw [← heq, ← hsame, hnext] at hle
    exact Nat.not_succ_le_self _ hle

theorem step_allocated (s : PortTable) (a : Action) (s' : PortTable)
    (h : s.Allocated) (hleft : s.PortsLeft a) (hstep : s.step a = some s') :
    s'.Allocated := by
  cases a with
  | create isTcp laddr uninit =>
      cases hstep
      exact h.create isTcp laddr uninit
  | perform i op =>
      rcases Option.map_eq_some_iff.1 hstep with ⟨pcb, hplace, heq⟩
      subst heq
      have hproto := pcb.perform_isTcp (s.port pcb.isTcp) op
      have hcase := pcb.perform_cases (s.port pcb.isTcp) op
      generalize pcb.perform (s.port pcb.isTcp) op = result at hproto hcase ⊢
      rcases result with ⟨pcb', port'⟩
      dsimp only at hproto hcase ⊢
      generalize hlport : pcb'.lport = lport' at hcase
      cases hcase with
      | bound hbound =>
          rw [Function.update_eq_self, portsBetween_self, List.append_nil]
          exact h.same_port hplace hproto hlport
      | binds hunbound hlast =>
          rw [← hproto] at hlast hlport ⊢
          exact h.bind_next hlast hlport
      | wraps hunbound hlast _ _ hmoved =>
          exact absurd hlast (hleft pcb hplace hunbound)
  | recv i peerAddr skbuf =>
      rcases Option.map_eq_some_iff.1 hstep with ⟨pcb, hplace, heq⟩
      subst heq
      exact h.same_port hplace (pcb.recv_isTcp peerAddr skbuf)
        (pcb.recv_lport peerAddr skbuf)
  | destroy i =>
      cases hstep
      refine h.overwrite h.nonzero (fun _ => Nat.le_refl _) ?_ ?_
      · intro a ha
        cases ha
      · intro a ha
        cases ha

/-- A bind of the last port returns the port zero. -/
theorem step_returns_zero (s : PortTable) (a : Action) (s' : PortTable)
    (hleft : ¬ s.PortsLeft a) (hstep : s.step a = some s') :
    0 ∈ s'.returned := by
  cases a with
  | create isTcp laddr uninit => exact absurd trivial hleft
  | recv i peerAddr skbuf => exact absurd trivial hleft
  | destroy i => exact absurd trivial hleft
  | perform i op =>
      rcases Option.map_eq_some_iff.1 hstep with ⟨pcb, hplace, heq⟩
      subst heq
      have hlast : pcb.lport = 0 ∧ s.port pcb.isTcp = 65535 := by
        by_contra hnot
        apply hleft
        intro other hother hunbound hport
        rw [hplace] at hother
        cases hother
        exact hnot ⟨hunbound, hport⟩
      refine List.mem_append_right _ ?_
      have hcase := pcb.perform_cases (s.port pcb.isTcp) op
      rw [hlast.right] at hcase ⊢
      generalize pcb.perform 65535 op = result at hcase ⊢
      rcases result with ⟨pcb', port'⟩
      dsimp only at hcase ⊢
      generalize pcb'.lport = lport' at hcase
      cases hcase with
      | bound hbound => exact absurd hlast.left hbound
      | binds hunbound hne => exact absurd rfl hne
      | wraps hunbound _ _ _ hmoved => exact zero_mem_portsBetween hmoved

theorem step_keeps_returned (s : PortTable) (a : Action) (s' : PortTable)
    (hzero : 0 ∈ s.returned) (hstep : s.step a = some s') :
    0 ∈ s'.returned := by
  cases a with
  | create isTcp laddr uninit =>
      cases hstep
      exact hzero
  | perform i op =>
      rcases Option.map_eq_some_iff.1 hstep with ⟨pcb, _, heq⟩
      subst heq
      exact List.mem_append_left _ hzero
  | recv i peerAddr skbuf =>
      rcases Option.map_eq_some_iff.1 hstep with ⟨pcb, _, heq⟩
      subst heq
      exact hzero
  | destroy i =>
      cases hstep
      exact hzero

/-- After any run, the ports returned so far are usable and the bound sessions
of a protocol have different ports exactly if no session was bound when the
counter of its protocol stood at the greatest port. -/
theorem usable_iff_portsLeft {actions : List Action} {s : PortTable}
    (hrun : run step init actions = some s) :
    s.Usable <-> StepsMeet step PortsLeft init actions := by
  have hexact := faultless_iff_stepsMeet (fun s a s' => step_allocated s a s')
    (fun s h hzero => h.nonzero 0 hzero rfl)
    (fun s a s' _ => step_returns_zero s a s') step_keeps_returned
    allocated_init hrun
  constructor
  · intro h
    exact hexact.1 (fun hzero => h.nonzero 0 hzero rfl)
  · intro hmeet
    exact (guardedRun_invariant step_allocated allocated_init hmeet
      hrun).usable

def twoBinds : List Action :=
  [.create false 0x0200a8c0 0, .create false 0x0200a8c0 0,
    .perform 0 (.connect 0x0100a8c0 0x3500), .perform 1 (.send [1])]

theorem usable_of_two_binds :
    exists s, run step init twoBinds = some s ∧
      s.returned = [0x0104, 0x0204] ∧ s.Usable := by
  have hrun : run step init twoBinds =
      some ((run step init twoBinds).getD init) := rfl
  refine ⟨_, hrun, rfl, (usable_iff_portsLeft hrun).2 ?_⟩
  refine ⟨trivial, trivial, ?_, ?_, trivial⟩
  · intro pcb hplace _
    cases hplace
    decide
  · intro pcb hplace _
    cases hplace
    decide

/-!
## The counter wraps
-/

def udpSocket : Action :=
  .create false 0x0200a8c0 0

/-- A client connects the UDP socket of its channel, and the next `socketCall`
on the channel puts another one in its place. -/
def clientRound (i : Nat) : List Action :=
  [.perform i (.connect 0x0100a8c0 0x3500), udpSocket, .destroy i]

def clientRounds : Nat -> List Action
  | 0 => [udpSocket]
  | n + 1 => clientRounds n ++ clientRound n

theorem run_clientRound {s : PortTable} {i : Nat}
    (hlen : s.sessions.length = i + 1)
    (hplace : s.session i = some (Pcb.create false 0x0200a8c0 0)) :
    exists s', run step s (clientRound i) = some s' ∧
      s'.sessions.length = i + 2 ∧
      s'.session (i + 1) = some (Pcb.create false 0x0200a8c0 0) ∧
      s'.port false = s.port false + 1 ∧
      (s.port false = 65535 -> 0 ∈ s'.returned) := by
  have hconnect : exists connected,
      s.step (.perform i (.connect 0x0100a8c0 0x3500)) = some connected ∧
      connected.sessions.length = i + 1 ∧
      connected.port false = s.port false + 1 := by
    refine ⟨_, Option.map_eq_some_iff.2 ⟨_, hplace, rfl⟩,
      List.length_set.trans hlen, ?_⟩
    show Function.update s.port false (s.port false + 1) false = _
    rw [Function.update_self]
  rcases hconnect with ⟨connected, hstep, hlen', hport⟩
  refine ⟨{ connected with
    sessions := (connected.sessions ++
      [some (Pcb.create false 0x0200a8c0 0)]).set i none },
    ?_, ?_, ?_, hport, ?_⟩
  · rw [clientRound, run_of_step hstep]
    rfl
  · rw [List.length_set, List.length_append, hlen']
    rfl
  · show ((connected.sessions ++ [_]).set i none)[i + 1]?.join = _
    rw [List.getElem?_set_ne (Nat.ne_of_lt (Nat.lt_add_one i)), ← hlen',
      List.getElem?_concat_length]
    rfl
  · intro hlast
    refine step_returns_zero s _ connected ?_ hstep
    intro hleft
    exact hleft _ hplace rfl hlast

theorem run_clientRounds (n : Nat) :
    exists s, run step init (clientRounds n) = some s ∧
      s.sessions.length = n + 1 ∧
      s.session n = some (Pcb.create false 0x0200a8c0 0) ∧
      s.port false = 1024 + UInt16.ofNat n := by
  induction n with
  | zero => exact ⟨_, rfl, rfl, rfl, rfl⟩
  | succ n ih =>
      rcases ih with ⟨s, hrun, hlen, hplace, hport⟩
      rcases run_clientRound hlen hplace with
        ⟨s', hround, hlen', hplace', hport', _⟩
      refine ⟨s', ?_, hlen', hplace', ?_⟩
      · rw [clientRounds, run_append hrun]
        exact hround
      · rw [hport', hport, UInt16.ofNat_add, UInt16.add_assoc]
        rfl

/-- After 64511 rounds the counter of UDP stands at 65535, and the next socket
that is connected gets the port zero, which means unbound. -/
theorem port_zero_after_wrap :
    exists s, run step init (clientRounds 64511 ++ clientRound 64511) =
      some s ∧ 0 ∈ s.returned ∧ ¬ s.Usable := by
  rcases run_clientRounds 64511 with ⟨s, hrun, hlen, hplace, hport⟩
  rcases run_clientRound hlen hplace with ⟨s', hround, _, _, _, hzero⟩
  have hreturned : 0 ∈ s'.returned := hzero hport
  refine ⟨s', ?_, hreturned, fun h => h.nonzero 0 hreturned rfl⟩
  rw [run_append hrun]
  exact hround

end PortTable

end Velox
