import Mathlib.Data.List.TakeDrop
import SplitHorizon.Proofs.Message.Cut
import SplitHorizon.Proofs.Server.Forwarding
import SplitHorizon.Proofs.Transport.Visits
/-!
# Replies that come as datagrams

A query that is passed on asks for replies of the size that the client's request asked for. Of a
datagram 4096 bytes are taken all the same, and those behind them are lost. So all replies of the
size that was asked for come whole exactly if that size is 4096 bytes at most (`takesWhole_iff`). Of
a longer message, cut as it is, nothing can be decoded, and the server that sent it counts as one
that failed (`exchange_oversized`).
-/

namespace SplitHorizon.Transport

variable {S α β δ σ : Type}

/-! ## Actions that are done -/

/-- An action comes to the result that its outcome stands for. -/
theorem run_act (server : Endpoint) (action : String) (x : StateM S (Outcome α)) (s : S) :
    (act server action x).run.run s = ((x.run s).1.toResult server action, (x.run s).2) := rfl

/-- Behind an action that is done the computation goes on with its value. -/
theorem run_act_bind {server : Endpoint} {action : String} {x : StateM S (Outcome α)} {s s' : S}
    {value : α} (h : x.run s = (.done value, s')) (f : α → ExceptT Failure (StateM S) β) :
    (act server action x >>= f).run.run s = (f value).run.run s' := by
  rw [ExceptT.run_bind, StateT.run_bind, run_act, h]
  rfl

/-- A network takes the query of a call and has a datagram for its sender. How much of the datagram
comes depends on the room for it. -/
def Delivers (net : Sockets δ σ (StateM S)) (c : Call) (datagram : List UInt8) (s : S) : Prop :=
  ∃ socket s₁ s₂ s₃, (net.bind c.server).run s = (.done socket, s₁) ∧
    (net.connect socket c.server).run s₁ = (.done (), s₂) ∧
    (net.send socket c.message).run s₂ = (.done (), s₃) ∧
    ∀ limit, ((net.receive socket limit).run s₃).1 = .done (datagram.take limit)

variable {net : Sockets δ σ (StateM S)} {c : Call} {reply : List UInt8} {s : S}

/-- What comes of a datagram is as much of it as there is room for. -/
theorem received_of_delivers (hprotocol : c.protocol = .udp) (h : Delivers net c reply s) :
    ((received net c).run s).1 = .ok (reply.take maxDatagram) := by
  obtain ⟨socket, s₁, s₂, s₃, hbind, hconnect, hsend, hreceive⟩ := h
  rw [received, hprotocol]
  show ((byDatagram net c.server c.message).run.run s).1 = _
  rw [byDatagram, run_act_bind hbind, run_act_bind hconnect, run_act_bind hsend, run_act]
  show ((net.receive socket maxDatagram).run s₃).1.toResult c.server "receive" = _
  rw [hreceive]
  rfl

/-- An exchange of datagrams comes to what as much of the datagram is taken for. -/
theorem exchange_of_delivers (hprotocol : c.protocol = .udp) (h : Delivers net c reply s) :
    ((exchange net c).run s).1 = checkReply c.server (reply.take maxDatagram) := by
  rw [run_exchange]
  show ((received net c).run s).1.bind (checkReply c.server) = _
  rw [received_of_delivers hprotocol h]
  rfl

/-! ## Replies of the size that was asked for -/

/-- Whether all messages of a size or less come whole that a network delivers for a call. -/
def TakesWhole (c : Call) (size : Nat) : Prop :=
  ∀ {S δ σ : Type} (net : Sockets δ σ (StateM S)) (reply : List UInt8) (s : S),
    Delivers net c reply s → reply.length ≤ size → (Message.decode reply).isSome = true →
      ((exchange net c).run s).1 = .ok reply

/-- A network that has the same datagram for everyone. -/
def delivering (datagram : List UInt8) : Sockets Unit Unit (StateM Unit) where
  bind _ := pure (.done ())
  connect _ _ := pure (.done ())
  send _ _ := pure (.done ())
  receive _ limit := pure (.done (datagram.take limit))
  start _ := pure .overdue
  hurry _ := pure .overdue
  write _ _ := pure .overdue
  read _ _ := pure .overdue

/-- Such a network delivers its datagram for every call. -/
theorem delivers_delivering (c : Call) (datagram : List UInt8) :
    Delivers (delivering datagram) c datagram () :=
  ⟨(), (), (), (), rfl, rfl, rfl, fun _ => rfl⟩

/-- A message of one byte more than is taken of a datagram. -/
def oversized : List UInt8 := Message.bulky (List.replicate 4074 0)

theorem length_oversized : oversized.length = maxDatagram + 1 := by
  rw [oversized, Message.length_bulky, List.length_replicate, maxDatagram]

/-- The oversized message ends where its last record does. -/
theorem fills_oversized : Message.fills oversized = true := by
  have hbody : List.replicate 4074 (0 : UInt8) ≠ [] := List.cons_ne_nil _ _
  refine Message.fills_bulky hbody ?_
  rw [List.length_replicate]
  decide

/-- Nothing can be decoded of a message that was cut, so its server has sent no reply. -/
theorem exchange_of_fills (hprotocol : c.protocol = .udp) (h : Delivers net c reply s)
    (hfills : Message.fills reply = true) :
    ((exchange net c).run s).1 =
      if reply.length ≤ maxDatagram then .ok reply
      else .error (.invalidReply ("Unparseable reply from " ++ c.server.toText)) := by
  rw [exchange_of_delivers hprotocol h, checkReply]
  by_cases hlength : reply.length ≤ maxDatagram
  · rw [List.take_of_length_le hlength, if_pos (Message.isSome_decode_of_fills hfills),
      if_pos hlength]
  · rw [Message.decode_take_eq_none hfills (Nat.lt_of_not_le hlength), if_neg hlength]
    rfl

/-- What is handed on says the same as the whole datagram, though it may be less. -/
theorem decode_of_exchange_eq_ok (hprotocol : c.protocol = .udp) (h : Delivers net c reply s)
    {back : List UInt8} (hback : ((exchange net c).run s).1 = .ok back) :
    Message.decode back = Message.decode reply := by
  rw [exchange_of_delivers hprotocol h, checkReply] at hback
  split at hback
  · rename_i hsome
    cases hback
    obtain ⟨m, hm⟩ := Option.isSome_iff_exists.mp hsome
    have hwhole := Message.decode_append hm (reply.drop maxDatagram)
    rw [List.take_append_drop] at hwhole
    rw [hm, hwhole]
  · cases hback

/-- **Messages of a size come whole exactly if there is room for that size.** -/
theorem takesWhole_iff (hprotocol : c.protocol = .udp) {size : Nat} :
    TakesWhole c size ↔ size ≤ maxDatagram := by
  constructor
  · intro hwhole
    refine Nat.le_of_not_lt fun hlt => ?_
    have hsize : oversized.length ≤ size := by
      rw [length_oversized]
      exact hlt
    have hdelivers := delivers_delivering c oversized
    have hok := hwhole _ _ _ hdelivers hsize (Message.isSome_decode_of_fills fills_oversized)
    rw [exchange_of_fills hprotocol hdelivers fills_oversized, length_oversized,
      if_neg (Nat.not_succ_le_self _)] at hok
    cases hok
  · intro hsize S δ σ net reply s h hlength hdecode
    rw [exchange_of_delivers hprotocol h, List.take_of_length_le (Nat.le_trans hlength hsize)]
    exact if_pos hdecode

/-- **A reply comes whole if it has 4096 bytes at most, whatever size was asked for.** A query that
is sent as a datagram asks for replies of the size that the client's request asked for. All messages
of that size come whole exactly if the size is 4096 at most.

Of any datagram the first 4096 bytes come. What is handed on of a longer one decodes as all of it
does. But if it was a message up to its end, then nothing is handed on, and the server has
failed. -/
theorem takesWhole_of_mem_calls {client : Address} {bytes : List UInt8} {r : Request} {e : Edns}
    (hr : Request.ofBytes client .udp bytes = some r) (hedns : r.message.edns = some e)
    {out : Outside Id} {store : Store} {ttl : UInt32} {c : Call}
    (hc : c ∈ (r.handle out store ttl).calls) :
    c.protocol = .udp ∧
      (bytes.length + 10 ≤ Message.maxSize →
        ∃ m, Message.decode c.message = some m ∧ m.edns = some e) ∧
      (TakesWhole c e.payload.toNat ↔ e.payload.toNat ≤ maxDatagram) ∧
      ∀ {S δ σ : Type} (net : Sockets δ σ (StateM S)) (reply : List UInt8) (s : S),
        Delivers net c reply s →
        ((received net c).run s).1 = .ok (reply.take maxDatagram) ∧
        (((received net c).run s).1 = .ok reply ↔ reply.length ≤ maxDatagram) ∧
        (∀ back, ((exchange net c).run s).1 = .ok back →
          Message.decode back = Message.decode reply) ∧
        (Message.fills reply = true → ((exchange net c).run s).1 =
          if reply.length ≤ maxDatagram then .ok reply
          else .error (.invalidReply ("Unparseable reply from " ++ c.server.toText))) := by
  obtain ⟨q, wire, server, hq, hlocal, hwire, rfl⟩ := Request.exists_of_mem_calls hc
  obtain ⟨wire', hwire', hsize, hdecode, -⟩ := Request.handle_forwarded hr hq hlocal out ttl
  obtain rfl : wire = wire' := Option.some.inj (hwire.symm.trans hwire')
  obtain ⟨-, hprotocol, -⟩ := Request.ofBytes_eq_some_iff.mp hr
  refine ⟨hprotocol, fun hlength => ?_, takesWhole_iff hprotocol, fun net reply s h => ?_⟩
  · exact ⟨_, hdecode (Nat.le_trans hsize hlength), hedns⟩
  · have hreceived := received_of_delivers hprotocol h
    refine ⟨hreceived, ?_, fun back => decode_of_exchange_eq_ok hprotocol h,
      exchange_of_fills hprotocol h⟩
    rw [hreceived, Except.ok.injEq, List.take_eq_self_iff]

/-- A request for the records of `aB` of any bytes, which asks for replies of 8192 bytes. -/
def demanding : List UInt8 :=
  [0x12, 0x34, 0x01, 0, 0, 1, 0, 0, 0, 0, 0, 1, 2, 0x61, 0x42, 0, 0, 10, 0, 1,
    0, 0, 41, 0x20, 0, 0, 0, 0, 0, 0, 0]

/-- Replies of the 1232 bytes that a request asked for come whole, a refusal for one. -/
theorem takesWhole_extended :
    ∃ r c, Request.ofBytes (.v4 0x0a000001) .udp Request.extended = some r ∧
      c ∈ (r.handle Request.refusers Request.serverOnly 60).calls ∧ TakesWhole c 1232 ∧
      Request.refusal.length ≤ 1232 ∧
      ((exchange (delivering Request.refusal) c).run ()).1 = .ok Request.refusal := by
  have hfacts : (Request.ofBytes (.v4 0x0a000001) .udp Request.extended).any (fun r =>
      r.message.edns = some ⟨1232, 0, true, 0, [⟨10, [7, 8]⟩]⟩ ∧
        (r.handle Request.refusers Request.serverOnly 60).calls =
          [⟨.v4 0xc0000201 53, .udp, Request.extended⟩]) = true := by
    decide +kernel
  obtain ⟨r, hr, hfacts⟩ := (Option.any_eq_true _ _).mp hfacts
  obtain ⟨hedns, hcalls⟩ := of_decide_eq_true hfacts
  have hc := hcalls ▸ List.mem_singleton_self _
  obtain ⟨-, -, hiff, -⟩ := takesWhole_of_mem_calls hr hedns hc
  have hwhole : TakesWhole ⟨.v4 0xc0000201 53, .udp, Request.extended⟩ 1232 :=
    @Iff.mpr _ _ hiff (by decide)
  have hlength : Request.refusal.length ≤ 1232 := by decide
  have hdecode : (Message.decode Request.refusal).isSome = true := by decide +kernel
  exact ⟨r, _, hr, hc, @hwhole, hlength,
    hwhole _ _ _ (delivers_delivering _ Request.refusal) hlength hdecode⟩

/-- Of the 8192 bytes that a request asked for a reply has 4097, and it is lost. -/
theorem exchange_oversized :
    ∃ r c e, Request.ofBytes (.v4 0x0a000001) .udp demanding = some r ∧
      r.message.edns = some e ∧ e.payload = 8192 ∧
      c ∈ (r.handle Request.refusers Request.serverOnly 60).calls ∧
      Delivers (delivering oversized) c oversized () ∧ oversized.length ≤ e.payload.toNat ∧
      (Message.decode oversized).isSome = true ∧
      ((received (delivering oversized) c).run ()).1 ≠ .ok oversized ∧
      ((exchange (delivering oversized) c).run ()).1 =
        .error (.invalidReply "Unparseable reply from 192.0.2.1:53") := by
  have hfacts : (Request.ofBytes (.v4 0x0a000001) .udp demanding).any (fun r =>
      r.message.edns = some ⟨8192, 0, false, 0, []⟩ ∧
        (r.handle Request.refusers Request.serverOnly 60).calls =
          [⟨.v4 0xc0000201 53, .udp, demanding⟩]) = true := by
    decide +kernel
  obtain ⟨r, hr, hfacts⟩ := (Option.any_eq_true _ _).mp hfacts
  obtain ⟨hedns, hcalls⟩ := of_decide_eq_true hfacts
  have hdelivers := delivers_delivering ⟨.v4 0xc0000201 53, .udp, demanding⟩ oversized
  refine ⟨r, _, _, hr, hedns, rfl, hcalls ▸ List.mem_singleton_self _, hdelivers, ?_,
    Message.isSome_decode_of_fills fills_oversized, fun hreceived => ?_, ?_⟩
  · rw [length_oversized]
    decide
  · rw [received_of_delivers rfl hdelivers, Except.ok.injEq, List.take_eq_self_iff,
      length_oversized] at hreceived
    exact Nat.not_succ_le_self _ hreceived
  · have htext : (Endpoint.v4 0xc0000201 53).toText = "192.0.2.1:53" := by decide +kernel
    rw [exchange_of_fills rfl hdelivers fills_oversized, length_oversized,
      if_neg (Nat.not_succ_le_self _), htext]
    rfl

end SplitHorizon.Transport
