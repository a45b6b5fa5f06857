import SplitHorizon.Proofs.Transport.Datagrams
import SplitHorizon.Proofs.Wire.Reader
/-!
# Messages on a stream

Messages that are sent over a connection one after the other come out of it as they went in, and
what comes behind them is left as it is (`Transport.receiveMany_sent`). The law is shown of bytes
first: what is read off the front of a stream is a frame, and every frame is read
(`Frame.read_eq_some_iff`). So a stream that ends inside a frame has no message there, and never a
shorter one. A message that has no frame is refused before a byte of it is written.
-/

namespace SplitHorizon

namespace Frame

/-! ## One frame -/

/-- A message that is not too long has a frame: its length in two bytes, and the message. -/
theorem put_eq_some_iff {message bytes : List UInt8} :
    put message = some bytes ↔ message.length ≤ Message.maxSize ∧
      bytes = Wire.put16 (UInt16.ofNat message.length) ++ message := by
  unfold put
  split
  · rename_i hlength
    simp [hlength, eq_comm]
  · rename_i hlength
    simp [hlength]

/-- The number in front of a message is read as the length of the message. -/
theorem ofBytes_put16 {n : Nat} (h : n ≤ Message.maxSize) :
    Places.ofBytes (Wire.put16 (UInt16.ofNat n)) = n := by
  have hlt : n < 65536 := Nat.lt_succ_of_le h
  rw [Wire.put16, UInt16.toNat_ofNat_of_lt' hlt]
  exact Places.ofBytes_bytes hlt

/-- Two bytes are what the number that they spell is written as. -/
theorem put16_ofBytes {length : List UInt8} (h : length.length = lengthSize) :
    Wire.put16 (UInt16.ofNat (Places.ofBytes length)) = length ∧
      Places.ofBytes length ≤ Message.maxSize := by
  have hlt : Places.ofBytes length < 65536 := by
    have hcapacity := Places.ofBytes_lt length
    rwa [h] at hcapacity
  refine ⟨?_, Nat.le_of_lt_succ hlt⟩
  have hbytes := Places.bytes_ofBytes length
  rw [h] at hbytes
  rw [Wire.put16, UInt16.toNat_ofNat_of_lt' hlt]
  exact hbytes

/-- **What is read off the front of a stream is a frame**, and every frame is read. -/
theorem read_eq_some_iff {stream message rest : List UInt8} :
    read stream = some (message, rest) ↔
      ∃ bytes, put message = some bytes ∧ stream = bytes ++ rest := by
  unfold read
  constructor
  · intro h
    obtain ⟨⟨length, body⟩, hlength, hbody⟩ := Option.bind_eq_some_iff.mp h
    obtain ⟨hsize, rfl⟩ := Wire.splitExactly_eq_some_iff.mp hlength
    obtain ⟨hmessage, rfl⟩ := Wire.splitExactly_eq_some_iff.mp hbody
    obtain ⟨hput, hle⟩ := put16_ofBytes hsize
    rw [← hmessage] at hput hle
    refine ⟨length ++ message, put_eq_some_iff.mpr ⟨hle, ?_⟩, (List.append_assoc ..).symm⟩
    rw [hput]
  · rintro ⟨bytes, hput, rfl⟩
    obtain ⟨hle, rfl⟩ := put_eq_some_iff.mp hput
    have hlength : Wire.splitExactly lengthSize
        (Wire.put16 (UInt16.ofNat message.length) ++ (message ++ rest)) =
          some (Wire.put16 (UInt16.ofNat message.length), message ++ rest) :=
      Wire.splitExactly_eq_some_iff.mpr ⟨Places.length_bytes .., rfl⟩
    have hbody : Wire.splitExactly message.length (message ++ rest) = some (message, rest) :=
      Wire.splitExactly_eq_some_iff.mpr ⟨rfl, rfl⟩
    simp [hlength, ofBytes_put16 hle, hbody]

/-! ## Several frames -/

/-- Messages as frames, one behind the other; nothing if one of them is too long. -/
def putAll : List (List UInt8) → Option (List UInt8)
  | [] => some []
  | message :: messages => do
    let bytes ← put message
    let rest ← putAll messages
    pure (bytes ++ rest)

/-- Takes so many messages off a stream. -/
def readMany : (count : Nat) → List UInt8 → Option (List (List UInt8) × List UInt8)
  | 0, stream => some ([], stream)
  | count + 1, stream => do
    let (message, stream) ← read stream
    let (messages, rest) ← readMany count stream
    pure (message :: messages, rest)

/-- The frames of messages are that of the first one and those of the others behind it. -/
theorem putAll_cons_eq_some_iff {message bytes : List UInt8} {messages : List (List UInt8)} :
    putAll (message :: messages) = some bytes ↔ ∃ front back, put message = some front ∧
      putAll messages = some back ∧ bytes = front ++ back := by
  simp only [putAll, Option.bind_eq_bind, Option.bind_eq_some_iff, Option.pure_def,
    Option.some.injEq, exists_and_left, eq_comm (a := bytes)]

/-- Messages have frames if none of them is too long. -/
theorem exists_putAll {messages : List (List UInt8)}
    (h : ∀ m ∈ messages, m.length ≤ Message.maxSize) : ∃ bytes, putAll messages = some bytes := by
  induction messages with
  | nil => exact ⟨[], rfl⟩
  | cons message messages ih =>
    rw [List.forall_mem_cons] at h
    obtain ⟨back, hback⟩ := ih h.2
    exact ⟨_, putAll_cons_eq_some_iff.mpr ⟨_, back, put_eq_some_iff.mpr ⟨h.1, rfl⟩, hback, rfl⟩⟩

/-- **What is read off a stream are the messages whose frames stand at its front**, as many as are
asked for. -/
theorem readMany_eq_some_iff {count : Nat} {stream rest : List UInt8}
    {messages : List (List UInt8)} :
    readMany count stream = some (messages, rest) ↔
      messages.length = count ∧ ∃ bytes, putAll messages = some bytes ∧ stream = bytes ++ rest := by
  induction count generalizing stream messages with
  | zero =>
    rw [readMany, List.length_eq_zero_iff]
    constructor
    · intro h
      cases h
      exact ⟨rfl, [], rfl, rfl⟩
    · rintro ⟨rfl, bytes, hput, rfl⟩
      cases hput
      rfl
  | succ count ih =>
    constructor
    · intro h
      obtain ⟨⟨message, stream'⟩, hread, h⟩ := Option.bind_eq_some_iff.mp h
      obtain ⟨⟨messages', rest'⟩, hmany, h⟩ := Option.bind_eq_some_iff.mp h
      cases h
      obtain ⟨front, hfront, rfl⟩ := read_eq_some_iff.mp hread
      obtain ⟨hcount, back, hback, rfl⟩ := ih.mp hmany
      refine ⟨congrArg (· + 1) hcount, front ++ back, ?_, (List.append_assoc ..).symm⟩
      exact putAll_cons_eq_some_iff.mpr ⟨front, back, hfront, hback, rfl⟩
    · rintro ⟨hcount, bytes, hput, rfl⟩
      obtain ⟨message, messages, rfl⟩ := List.exists_cons_of_length_eq_add_one hcount
      obtain ⟨front, back, hfront, hback, rfl⟩ := putAll_cons_eq_some_iff.mp hput
      have hread : read (front ++ (back ++ rest)) = some (message, back ++ rest) :=
        read_eq_some_iff.mpr ⟨front, hfront, rfl⟩
      have hmany : readMany count (back ++ rest) = some (messages, rest) :=
        ih.mpr ⟨Nat.succ.inj hcount, back, hback, rfl⟩
      simp [readMany, hread, hmany]

/-- **Frames that are cut off anywhere do not hold as many messages any more.** -/
theorem readMany_take_eq_none {messages : List (List UInt8)} {bytes : List UInt8}
    (h : putAll messages = some bytes) {k : Nat} (hk : k < bytes.length) :
    readMany messages.length (bytes.take k) = none := by
  rw [Option.eq_none_iff_forall_ne_some]
  rintro ⟨messages', rest⟩ hread
  obtain ⟨hcount, front, hfront, htake⟩ := readMany_eq_some_iff.mp hread
  -- with the rest behind them, what was read would be read off all of the bytes
  have hshort : readMany messages.length bytes = some (messages', rest ++ bytes.drop k) :=
    readMany_eq_some_iff.mpr ⟨hcount, front, hfront, by
      rw [← List.append_assoc, ← htake, List.take_append_drop]⟩
  have hwhole : readMany messages.length bytes = some (messages, []) :=
    readMany_eq_some_iff.mpr ⟨rfl, bytes, h, (List.append_nil _).symm⟩
  rw [hwhole, Option.some.injEq, Prod.mk.injEq] at hshort
  have hdrop : bytes.drop k = [] := (List.append_eq_nil_iff.mp hshort.2.symm).2
  rw [List.drop_eq_nil_iff] at hdrop
  omega

end Frame

/-- An action that is not done fails. -/
theorem Outcome.exists_error_of_ne_done {α : Type} {o : Outcome α} (h : ∀ a, o ≠ .done a)
    (server : Endpoint) (action : String) : ∃ why, o.toResult server action = .error why := by
  cases o with
  | done a => exact absurd rfl (h a)
  | failed why => exact ⟨_, rfl⟩
  | overdue => exact ⟨_, rfl⟩

namespace Transport

/-! ## Over a connection -/

section

variable {δ σ : Type} {m : Type → Type} [Monad m]

/-- Receives so many messages, one after the other. -/
def receiveMany (net : Sockets δ σ m) (server : Endpoint) (stream : σ) :
    (count : Nat) → ExceptT Failure m (List (List UInt8))
  | 0 => pure []
  | count + 1 => do
    let message ← receiveFramed net server stream
    let messages ← receiveMany net server stream count
    pure (message :: messages)

end

variable {S α β δ σ : Type}

/-- A step that succeeds is followed by the next one. -/
theorem run_bind_of_ok {x : ExceptT Failure (StateM S) α} {s s' : S} {a : α}
    (h : x.run.run s = (.ok a, s')) (f : α → ExceptT Failure (StateM S) β) :
    (x >>= f).run.run s = (f a).run.run s' := by
  rw [ExceptT.run_bind, StateT.run_bind, h]
  rfl

/-- A step that fails is the last one. -/
theorem run_bind_of_error {x : ExceptT Failure (StateM S) α} {s s' : S} {why : Failure}
    (h : x.run.run s = (.error why, s')) (f : α → ExceptT Failure (StateM S) β) :
    (x >>= f).run.run s = (.error why, s') := by
  rw [ExceptT.run_bind, StateT.run_bind, h]
  rfl

/-- **A connection carries bytes.** What is written comes behind what has been sent. What is read is
taken off the bytes that have come, and nothing is read if there are not as many. -/
structure Carries (net : Sockets δ σ (StateM S)) (stream : σ) (sent come : S → List UInt8) :
    Prop where
  write : ∀ bytes s, ∃ s', (net.write stream bytes).run s = (.done (), s') ∧
    sent s' = sent s ++ bytes
  read : ∀ n s front rest, Wire.splitExactly n (come s) = some (front, rest) →
    ∃ s', (net.read stream n).run s = (.done front, s') ∧ come s' = rest
  ended : ∀ n s, Wire.splitExactly n (come s) = none →
    ∀ taken, ((net.read stream n).run s).1 ≠ .done taken

section

variable {net : Sockets δ σ (StateM S)} {stream : σ} {sent come : S → List UInt8}
  (h : Carries net stream sent come) (server : Endpoint)

include h

/-! ### Sending -/

/-- A message is sent as its frame. -/
theorem Carries.run_sendFramed {message bytes : List UInt8} (hput : Frame.put message = some bytes)
    (s : S) : ∃ s', (sendFramed net server stream message).run.run s = (.ok (), s') ∧
      sent s' = sent s ++ bytes := by
  obtain ⟨s', hwrite, hsent⟩ := h.write bytes s
  refine ⟨s', ?_, hsent⟩
  rw [sendFramed, hput]
  show (act server "send" (net.write stream bytes)).run.run s = _
  rw [run_act, hwrite]
  rfl

/-- Messages are sent as their frames, one behind the other. -/
theorem Carries.run_forM_sendFramed {messages : List (List UInt8)} {bytes : List UInt8}
    (hput : Frame.putAll messages = some bytes) (s : S) :
    ∃ s', (messages.forM (sendFramed net server stream)).run.run s = (.ok (), s') ∧
      sent s' = sent s ++ bytes := by
  induction messages generalizing bytes s with
  | nil =>
    cases hput
    exact ⟨s, rfl, (List.append_nil _).symm⟩
  | cons message messages ih =>
    obtain ⟨front, back, hfront, hback, rfl⟩ := Frame.putAll_cons_eq_some_iff.mp hput
    obtain ⟨s₁, hrun₁, hsent₁⟩ := h.run_sendFramed server hfront s
    obtain ⟨s₂, hrun₂, hsent₂⟩ := ih hback s₁
    refine ⟨s₂, ?_, ?_⟩
    · show (sendFramed net server stream message >>= fun _ =>
        messages.forM (sendFramed net server stream)).run.run s = _
      rw [run_bind_of_ok hrun₁, hrun₂]
    · rw [hsent₂, hsent₁, List.append_assoc]

/-! ### Receiving -/

/-- A message is received if its frame stands at the front of what has come, and what is behind the
frame is left. -/
theorem Carries.run_receiveFramed {s : S} {message rest : List UInt8}
    (hread : Frame.read (come s) = some (message, rest)) :
    ∃ s', (receiveFramed net server stream).run.run s = (.ok message, s') ∧ come s' = rest := by
  obtain ⟨⟨length, body⟩, hlength, hbody⟩ := Option.bind_eq_some_iff.mp hread
  obtain ⟨s₁, hrun₁, hcome₁⟩ := h.read _ _ _ _ hlength
  rw [← hcome₁] at hbody
  obtain ⟨s₂, hrun₂, hcome₂⟩ := h.read _ _ _ _ hbody
  refine ⟨s₂, ?_, hcome₂⟩
  rw [receiveFramed, run_act_bind hrun₁, run_act, hrun₂]
  rfl

/-- Without a whole frame at its front nothing is received of a stream. -/
theorem Carries.run_receiveFramed_of_none {s : S} (hread : Frame.read (come s) = none) :
    ∃ why s', (receiveFramed net server stream).run.run s = (.error why, s') := by
  cases hlength : Wire.splitExactly Frame.lengthSize (come s) with
  | none =>
    obtain ⟨why, hwhy⟩ := Outcome.exists_error_of_ne_done (h.ended _ _ hlength) server "receive"
    have hrun : (act server "receive" (net.read stream Frame.lengthSize)).run.run s =
        (.error why, ((net.read stream Frame.lengthSize).run s).2) := by rw [run_act, hwhy]
    exact ⟨why, _, run_bind_of_error hrun _⟩
  | some split =>
    obtain ⟨length, body⟩ := split
    obtain ⟨s₁, hrun₁, hcome₁⟩ := h.read _ _ _ _ hlength
    have hbody : Wire.splitExactly (Places.ofBytes length) (come s₁) = none := by
      rw [Frame.read, hlength] at hread
      rw [hcome₁]
      exact hread
    obtain ⟨why, hwhy⟩ := Outcome.exists_error_of_ne_done (h.ended _ _ hbody) server "receive"
    refine ⟨why, ((net.read stream (Places.ofBytes length)).run s₁).2, ?_⟩
    rw [receiveFramed, run_act_bind hrun₁, run_act, hwhy]

/-- Messages are received if their frames stand at the front of what has come. -/
theorem Carries.run_receiveMany {count : Nat} {s : S} {messages : List (List UInt8)}
    {rest : List UInt8} (hread : Frame.readMany count (come s) = some (messages, rest)) :
    ∃ s', (receiveMany net server stream count).run.run s = (.ok messages, s') ∧
      come s' = rest := by
  induction count generalizing s messages with
  | zero =>
    cases hread
    exact ⟨s, rfl, rfl⟩
  | succ count ih =>
    obtain ⟨⟨message, body⟩, hfirst, hread⟩ := Option.bind_eq_some_iff.mp hread
    obtain ⟨⟨messages', rest'⟩, hmany, hread⟩ := Option.bind_eq_some_iff.mp hread
    cases hread
    obtain ⟨s₁, hrun₁, hcome₁⟩ := h.run_receiveFramed server hfirst
    rw [← hcome₁] at hmany
    obtain ⟨s₂, hrun₂, hcome₂⟩ := ih hmany
    refine ⟨s₂, ?_, hcome₂⟩
    rw [receiveMany, run_bind_of_ok hrun₁, run_bind_of_ok hrun₂]
    rfl

/-- If there are fewer frames, as many messages are not received. -/
theorem Carries.run_receiveMany_of_none {count : Nat} {s : S}
    (hread : Frame.readMany count (come s) = none) :
    ∃ why s', (receiveMany net server stream count).run.run s = (.error why, s') := by
  induction count generalizing s with
  | zero => cases hread
  | succ count ih =>
    cases hfirst : Frame.read (come s) with
    | none =>
      obtain ⟨why, s', hrun⟩ := h.run_receiveFramed_of_none server hfirst
      exact ⟨why, s', run_bind_of_error hrun _⟩
    | some read =>
      obtain ⟨message, body⟩ := read
      obtain ⟨s₁, hrun₁, hcome₁⟩ := h.run_receiveFramed server hfirst
      have hmany : Frame.readMany count (come s₁) = none := by
        rw [hcome₁, Option.eq_none_iff_forall_ne_some]
        intro found hfound
        rw [Frame.readMany, hfirst] at hread
        simp [hfound] at hread
      obtain ⟨why, s₂, hrun₂⟩ := ih hmany
      refine ⟨why, s₂, ?_⟩
      rw [receiveMany, run_bind_of_ok hrun₁, run_bind_of_error hrun₂]

/-- One message is received exactly if a frame stands at the front of the stream. -/
theorem Carries.received_eq_ok_iff {s : S} {message : List UInt8} :
    ((receiveFramed net server stream).run.run s).1 = .ok message ↔
      ∃ bytes rest, Frame.put message = some bytes ∧ come s = bytes ++ rest := by
  constructor
  · intro hreceived
    cases hread : Frame.read (come s) with
    | none =>
      obtain ⟨why, s', hrun⟩ := h.run_receiveFramed_of_none server hread
      rw [hrun] at hreceived
      cases hreceived
    | some read =>
      obtain ⟨message', rest⟩ := read
      obtain ⟨s', hrun, -⟩ := h.run_receiveFramed server hread
      rw [hrun] at hreceived
      cases hreceived
      obtain ⟨bytes, hput, hcome⟩ := Frame.read_eq_some_iff.mp hread
      exact ⟨bytes, rest, hput, hcome⟩
  · rintro ⟨bytes, rest, hput, hcome⟩
    obtain ⟨s', hrun, -⟩ :=
      h.run_receiveFramed server (Frame.read_eq_some_iff.mpr ⟨bytes, hput, hcome⟩)
    rw [hrun]

/-- **Messages come out of a connection as they went in.** An exchange over a connection sends one
message and receives one. Messages of at most 65535 bytes, sent one after the other, are received in
order, and what has come behind them is left. If what has come ends anywhere before the end of the
last one, then as many are not received. What is received is a message with a whole frame at the
front of what has come, and nothing else. A longer message is refused, and the connection stays as
it is. -/
theorem receiveMany_sent :
    (∀ message, byStream net server message = (do
      let stream ← act server "connect" (net.start server)
      act server "set TCP_NODELAY" (net.hurry stream)
      sendFramed net server stream message
      receiveFramed net server stream)) ∧
    (∀ messages s, (∀ m ∈ messages, m.length ≤ Message.maxSize) →
      ∃ bytes s', Frame.putAll messages = some bytes ∧
        (messages.forM (sendFramed net server stream)).run.run s = (.ok (), s') ∧
        sent s' = sent s ++ bytes ∧
        (∀ t rest, come t = bytes ++ rest →
          ∃ t', (receiveMany net server stream messages.length).run.run t = (.ok messages, t') ∧
            come t' = rest) ∧
        ∀ k < bytes.length, ∀ t, come t = bytes.take k → ∃ why t',
          (receiveMany net server stream messages.length).run.run t = (.error why, t')) ∧
    (∀ t message, ((receiveFramed net server stream).run.run t).1 = .ok message ↔
      ∃ bytes rest, Frame.put message = some bytes ∧ come t = bytes ++ rest) ∧
    ∀ message s, Message.maxSize < message.length →
      (sendFramed net server stream message).run.run s =
        (.error ((tooLarge message).toFailure server "send"), s) := by
  refine ⟨fun _ => rfl, fun messages s hlength => ?_,
    fun t message => h.received_eq_ok_iff server, fun message s hlength => ?_⟩
  · obtain ⟨bytes, hput⟩ := Frame.exists_putAll hlength
    obtain ⟨s', hrun, hsent⟩ := h.run_forM_sendFramed server hput s
    refine ⟨bytes, s', hput, hrun, hsent, fun t rest hcome => ?_, fun k hk t hcome => ?_⟩
    · exact h.run_receiveMany server (Frame.readMany_eq_some_iff.mpr ⟨rfl, bytes, hput, hcome⟩)
    · apply h.run_receiveMany_of_none server
      rw [hcome]
      exact Frame.readMany_take_eq_none hput hk
  · have hput : Frame.put message = none := if_neg (Nat.not_le_of_lt hlength)
    rw [sendFramed, hput]
    rfl

end

/-- A network with one connection: the bytes that have been sent over it, and those that have
come. -/
def piped : Sockets Unit Unit (StateM (List UInt8 × List UInt8)) where
  bind _ := pure .overdue
  connect _ _ := pure .overdue
  send _ _ := pure .overdue
  receive _ _ := pure .overdue
  start _ := pure (.done ())
  hurry _ := pure (.done ())
  write _ bytes := fun (sent, come) => (.done (), (sent ++ bytes, come))
  read _ n := fun (sent, come) =>
    match Wire.splitExactly n come with
    | some (front, rest) => (.done front, (sent, rest))
    | none => (.failed ⟨.other, "early eof"⟩, (sent, come))

/-- The connection of that network carries bytes. -/
theorem carries_piped : Carries piped () Prod.fst Prod.snd where
  write bytes s := ⟨(s.1 ++ bytes, s.2), rfl, rfl⟩
  read n s front rest hsplit := by
    refine ⟨(s.1, rest), ?_, rfl⟩
    simp [piped, StateT.run, hsplit]
  ended n s hsplit taken := by
    simp [piped, StateT.run, hsplit]

/-- Three messages, the second one empty, with two bytes behind them, and without the last byte. -/
theorem receiveMany_sent_piped :
    ∃ s' t', (([[1, 2, 3], [], [9]] : List (List UInt8)).forM
        (sendFramed piped (.v4 0xc0000201 53) ())).run.run ([], []) = (.ok (), s') ∧
      s'.1 = [0, 3, 1, 2, 3, 0, 0, 0, 1, 9] ∧
      (receiveMany piped (.v4 0xc0000201 53) () 3).run.run ([], s'.1 ++ [7, 7]) =
        (.ok [[1, 2, 3], [], [9]], t') ∧
      t'.2 = [7, 7] ∧
      ∃ why t', (receiveMany piped (.v4 0xc0000201 53) () 3).run.run ([], s'.1.take 9) =
        (.error why, t') := by
  obtain ⟨-, hsent, -, -⟩ := receiveMany_sent carries_piped (.v4 0xc0000201 53)
  obtain ⟨bytes, s', hput, hrun, hbytes, hback, hcut⟩ :=
    hsent [[1, 2, 3], [], [9]] ([], []) (by decide)
  have hframes : Frame.putAll [[1, 2, 3], [], [9]] = some [0, 3, 1, 2, 3, 0, 0, 0, 1, 9] := by
    decide
  obtain rfl : [0, 3, 1, 2, 3, 0, 0, 0, 1, 9] = bytes := Option.some.inj (hframes.symm.trans hput)
  rw [List.nil_append] at hbytes
  obtain ⟨t', hreceived, hrest⟩ := hback ([], s'.1 ++ [7, 7]) [7, 7] (by rw [hbytes])
  exact ⟨s', t', hrun, hbytes, hreceived, hrest, hcut 9 (by decide) _ (by rw [hbytes])⟩

end Transport

end SplitHorizon
