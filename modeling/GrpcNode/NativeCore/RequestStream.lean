import GrpcNode.Lib.Link
import GrpcNode.NativeCore.ClientWrites
import GrpcNode.NativeCore.Transport

/-!
# GrpcNode.NativeCore.RequestStream

A stream of requests, with both of its ends: the call of the client that writes, and the stream
that the handler reads. The `Transport` is the link between them again: the client closes its end
with `SEND_CLOSE_FROM_CLIENT`, and a read of the server completes without a message when all of them
have been read, or when the call has failed.

`always_requestStream` says what a handler may conclude from this.
-/

namespace GrpcNode.NativeCore

open GrpcNode.Js

/-! ### What a client sends -/

namespace ClientCall

variable {core : Core} {ε β γ : Type*} {s : State β}

/-- The client has closed its end. -/
def State.Closed (s : State β) : Prop := .sendCloseFromClient ∈ started s.history

/-- A batch without messages sends none. -/
theorem sent_nil_of_startBatch {batch : Batch} {ops : List CoreOp}
    (h : NativeCore.startBatch core batch = .ok ops) (hbatch : messages batch = []) :
    sent [.start ops] = [] := by
  rw [sent, Discipline.operations_start, startBatch_messages h, hbatch]

/-- What was started in two parts of a history. -/
theorem started_append (h k : History) : started (h ++ k) = started h ++ started k := by
  rw [started, Discipline.started, Discipline.operations_append, List.map_append]
  rfl

/-- What a step may do to the history. -/
def Extends (s s' : State β) (more : History) : Prop :=
  s'.history = s.history ++ more ∧ (s.Closed → sent more = [])

/-- A step that starts nothing leaves the history. -/
theorem extends_same {s' : State β} (h : s'.history = s.history) : Extends s s' [] :=
  ⟨h.trans (List.append_nil _).symm, fun _ => rfl⟩

/-- A batch of the write stream is started before the end of the requests only. -/
theorem extends_startWrite {t : State β} (hhistory : t.history = s.history) (hopen : ¬ s.Closed)
    (batch : Batch) : ∃ more, Extends s (t.startWrite core batch) more := by
  unfold State.startWrite
  split
  · exact ⟨[], extends_same hhistory⟩
  · split
    · exact ⟨_, congrArg (· ++ _) hhistory, fun h => absurd h hopen⟩
    · exact ⟨[], extends_same hhistory⟩

/-- Only what has no messages is started after the end has been closed. -/
theorem extends_step {serialize : γ → Except ε JsValue} {deserialize : Buffer → Except ε β}
    {s' : State β} {a : Act γ} (h : Inv s) (hstep : step core serialize deserialize s a = some s') :
    ∃ more, Extends s s' more := by
  cases a with
  | write chunk encoding =>
      obtain ⟨⟨hwrites, -, hfinished⟩, rfl⟩ := Runs.when_eq_some.mp hstep
      have hopen : ¬ s.Closed := h.unclosed hwrites hfinished
      unfold State.write
      split
      · exact ⟨[], extends_same rfl⟩
      · split
        · exact ⟨[], extends_same rfl⟩
        · unfold State.writeMessage
          split
          · refine extends_startWrite ?_ hopen _
            rfl
          · exact ⟨[], extends_same rfl⟩
  | writeCompletes completion =>
      obtain ⟨-, rfl⟩ := Runs.when_eq_some.mp hstep
      exact ⟨_, rfl, fun _ => rfl⟩
  | immediate =>
      obtain ⟨-, rfl⟩ := Runs.when_eq_some.mp hstep
      exact ⟨[], extends_same rfl⟩
  | streamEnd =>
      obtain ⟨-, rfl⟩ := Runs.when_eq_some.mp hstep
      exact ⟨[], extends_same rfl⟩
  | finish =>
      obtain ⟨-, rfl⟩ := Runs.when_eq_some.mp hstep
      unfold State.finish
      split
      · exact ⟨[], extends_same rfl⟩
      · split
        · rename_i ops hops
          exact ⟨_, rfl, fun _ => sent_nil_of_startBatch hops rfl⟩
        · exact ⟨[], extends_same rfl⟩
  | closeCompletes =>
      obtain ⟨-, rfl⟩ := Runs.when_eq_some.mp hstep
      exact ⟨_, rfl, fun _ => rfl⟩
  | metadataCompletes =>
      obtain ⟨-, rfl⟩ := Runs.when_eq_some.mp hstep
      exact ⟨_, rfl, fun _ => rfl⟩
  | responseCompletes =>
      obtain ⟨-, rfl⟩ := Runs.when_eq_some.mp hstep
      exact ⟨_, rfl, fun _ => rfl⟩
  | reader a =>
      obtain ⟨-, -, reader, -, rfl⟩ := step_reader hstep
      refine ⟨_, List.append_assoc _ _ _, fun _ => ?_⟩
      have hstatus : sent (s.statusEvents s.reader.statusOutstanding reader.statusOutstanding) =
          [] := by
        unfold State.statusEvents
        split <;> rfl
      have hread : sent (State.readEvents s.reader.reads reader.reads) = [] := by
        unfold State.readEvents
        split
        · rfl
        · split <;> rfl
      rw [sent_append, hstatus, hread]
      rfl
  | releaseCall =>
      obtain ⟨-, rfl⟩ := Runs.when_eq_some.mp hstep
      exact ⟨[], extends_same rfl⟩

/-- Messages are sent after those that were sent before. -/
theorem Extends.sent_eq {s' : State β} {more : History} (h : Extends s s' more) :
    sent s'.history = sent s.history ++ sent more := by
  rw [h.1, sent_append]

/-- A stream that is closed stays closed. -/
theorem Extends.closed {s' : State β} {more : History} (h : Extends s s' more) (hclosed : s.Closed) :
    s'.Closed := by
  rw [State.Closed, h.1, started_append]
  exact List.mem_append_left _ hclosed

end ClientCall

/-! ### What a server stream has been given -/

namespace ServerReadStream

variable {core : Core} {β : Type*} {deserialize : Buffer → Except (ErrorObject core) β}

/-- The messages that have been read. -/
def State.taken (s : State core β) : List Buffer := ReadLoop.items (history s.events)

/-- The core has said that there are no more messages. -/
def State.AtEnd (s : State core β) : Prop := .readResult (.message none) ∈ s.events

/-- The message that an action brings. -/
def Act.message? : Act → Option Buffer
  | .readCompletes (.message data) => data
  | _ => none

/-- Events that bring neither a message nor the end. -/
structure Brings (s s' : State core β) (more : List (Event core β)) : Prop where
  events : s'.events = s.events ++ more
  history : history more = []
  notEnd : .readResult (.message none) ∉ more

/-- A step without an event brings no message. -/
theorem brings_same {s s' : State core β} (h : s'.events = s.events) : Brings s s' [] :=
  ⟨h.trans (List.append_nil _).symm, rfl, List.not_mem_nil⟩

/-- A read that is started brings no message yet. -/
theorem brings_startBatch {s s' : State core β} (h : s'.events = s.events) :
    ∃ more, Brings s s'.startBatch more := by
  unfold State.startBatch
  split
  · exact ⟨[.readResult .error], congrArg (· ++ _) h, rfl, by simp⟩
  · exact ⟨[], brings_same h⟩

/-- A step brings no message unless it is the completion of a read with one. -/
theorem step_brings {s s' : State core β} {a : Act} (h : step deserialize s a = some s')
    (ha : ∀ data, a ≠ .readCompletes (.message data)) : ∃ more, Brings s s' more := by
  cases step_effect h with
  | read =>
      unfold State.read
      split
      · exact ⟨[.push none], rfl, rfl, by simp⟩
      · split
        · exact brings_startBatch rfl
        · exact ⟨[], brings_same rfl⟩
  | readCompletes result _ _ =>
      cases result with
      | error => exact ⟨[.readResult .error], rfl, rfl, by simp⟩
      | message data => exact absurd rfl (ha data)
  | pushReturns more _ =>
      unfold State.afterPush
      split
      · exact brings_startBatch rfl
      · exact ⟨[], brings_same rfl⟩
  | pushThrows _ => exact ⟨[], brings_same rfl⟩
  | terminate => exact ⟨[], brings_same rfl⟩
  | releaseCall _ => exact ⟨[], brings_same rfl⟩

/-- What comes with a message, or with the end. -/
theorem State.readCompletes_brings (s : State core β)
    (deserialize : Buffer → Except (ErrorObject core) β) (data : Option Buffer) :
    ∃ more, (s.readCompletes deserialize (.message data)).events =
      s.events ++ .readResult (.message data) :: more ∧ ReadLoop.items (history more) = [] ∧
      (data = none → history more = []) ∧ .readResult (.message none) ∉ more := by
  unfold State.readCompletes
  simp only [State.readCallback]
  split
  · exact ⟨[.push none], List.append_assoc _ _ _, rfl, fun _ => rfl, by simp⟩
  · split
    · exact ⟨[.error _], List.append_assoc _ _ _, rfl, fun _ => rfl, by simp⟩
    · rename_i deserialized hdeserialized
      refine ⟨[.push deserialized], List.append_assoc _ _ _, ?_, ?_, by simp⟩
      · cases deserialized <;> rfl
      · rintro rfl
        obtain rfl := Except.ok.inj hdeserialized
        rfl

end ServerReadStream

/-! ### Both ends -/

namespace RequestStream

variable {core : Core} {ε ε' α β γ δ : Type*}

/-- The call of the client, and the stream of the handler -/
structure State (core : Core) (β δ : Type*) where
  client : ClientCall.State β
  server : ServerReadStream.State core δ := {}
  /-- The call has failed. -/
  failed : Bool := false

/-- A step of the client, of the server, or of the call between the two. -/
inductive Act (γ : Type*)
  | client (a : ClientCall.Act γ)
  | server (a : ServerReadStream.Act)
  /-- The call fails. -/
  | fail

namespace State

variable (s : State core β δ)

/-- The operations that the client has started -/
def ops : List CoreOp := Discipline.operations s.client.history

/-- The messages that have been handed to the core. -/
def sent : List Buffer := ClientCall.sent s.client.history

/-- A read completes with what the transport delivers, or without a message if the call has
failed. -/
def Carries (transport : Transport) : ServerReadStream.Act → Prop
  | .readCompletes (.message (some data)) =>
      transport.message s.ops s.server.taken.length data = true
  | .readCompletes (.message none) =>
      transport.noMessage s.ops s.server.taken.length = true ∨ s.failed = true
  | _ => True

instance (transport : Transport) (a : ServerReadStream.Act) : Decidable (s.Carries transport a) := by
  unfold Carries
  split <;> infer_instance

/-- The requests as a link. -/
def link : Link.State Buffer where
  sent := s.sent
  closed := s.client.Closed
  taken := s.server.taken
  failed := s.failed = true
  ended := s.server.AtEnd

/-- The client has closed its end if this is among the operations that it has started. -/
theorem closed_of_mem (h : .sendCloseFromClient ∈ s.ops) : s.client.Closed :=
  List.mem_map_of_mem (f := CoreOp.type) h

end State

/-- One step. A read of the server completes with what the transport can bring. -/
def step (transport : Transport) (serialize : γ → Except ε JsValue)
    (deserialize : Buffer → Except ε β)
    (deserializeRequest : Buffer → Except (ErrorObject core) δ) (s : State core β δ) :
    Act γ → Option (State core β δ)
  | .client a => (ClientCall.step core serialize deserialize s.client a).map fun client =>
      { s with client }
  | .server a =>
      if s.Carries transport a then
        (ServerReadStream.step deserializeRequest s.server a).map fun server => { s with server }
      else none
  | .fail => some { s with failed := true }

variable {transport : Transport} {serialize : γ → Except ε JsValue}
  {deserialize : Buffer → Except ε β} {deserializeRequest : Buffer → Except (ErrorObject core) δ}

/-! ### The link -/

/-- What the client does is a step of the sending side of the link. -/
theorem link_client {s : State core β δ} {client : ClientCall.State β} {more : ClientCall.History}
    (h : ClientCall.Extends s.client client more) : Link.Step s.link { s with client }.link := by
  have hsent : ClientCall.sent client.history = s.sent ++ ClientCall.sent more := h.sent_eq
  by_cases hclosed : s.client.Closed
  · have hsame : { s with client }.link =
        { s.link with sent := s.link.sent ++ ClientCall.sent more } := by
      simp only [State.link, State.sent, hsent, eq_true hclosed, eq_true (h.closed hclosed)]
    rw [hsame]
    exact .send _ (.inr (h.2 hclosed))
  · by_cases hclosed' : client.Closed
    · have hclose : { s with client }.link =
          { s.link with sent := s.link.sent ++ ClientCall.sent more, closed := True } := by
        simp only [State.link, State.sent, hsent, eq_true hclosed']
      rw [hclose]
      exact .close _ hclosed
    · have hsend : { s with client }.link =
          { s.link with sent := s.link.sent ++ ClientCall.sent more } := by
        simp only [State.link, State.sent, hsent, eq_false hclosed, eq_false hclosed']
      rw [hsend]
      exact .send _ (.inl hclosed)

/-- A step of the server that brings neither a message nor the end -/
theorem link_brings {s : State core β δ} {server : ServerReadStream.State core δ}
    {more : List (ServerReadStream.Event core δ)} (h : ServerReadStream.Brings s.server server more) :
    { s with server }.link = s.link ∧
      ServerReadStream.history server.events = ServerReadStream.history s.server.events := by
  have hhistory : ServerReadStream.history server.events =
      ServerReadStream.history s.server.events := by
    rw [h.events, ServerReadStream.history_append, h.history, List.append_nil]
  refine ⟨?_, hhistory⟩
  have htaken : server.taken = s.server.taken := congrArg ReadLoop.items hhistory
  have hend : server.AtEnd = s.server.AtEnd := by
    unfold ServerReadStream.State.AtEnd
    rw [h.events]
    exact propext ⟨fun hmem => (List.mem_append.mp hmem).resolve_right h.notEnd,
      List.mem_append_left more⟩
  simp only [State.link, State.sent, htaken, hend]

/-- The next message -/
theorem link_message (deserializeRequest : Buffer → Except (ErrorObject core) δ)
    (s : State core β δ) (data : Buffer) :
    { s with server := s.server.readCompletes deserializeRequest (.message (some data)) }.link =
      { s.link with taken := s.link.taken ++ [data] } := by
  obtain ⟨more, hevents, hitems, -, hnotEnd⟩ :=
    s.server.readCompletes_brings deserializeRequest (some data)
  have htaken : (s.server.readCompletes deserializeRequest (.message (some data))).taken =
      s.server.taken ++ [data] := by
    rw [ServerReadStream.State.taken, hevents, ServerReadStream.history_append,
      ReadLoop.items_append]
    exact congrArg (s.server.taken ++ data :: ·) hitems
  have hend : (s.server.readCompletes deserializeRequest (.message (some data))).AtEnd =
      s.server.AtEnd := by
    unfold ServerReadStream.State.AtEnd
    rw [hevents]
    refine propext ⟨fun hmem => ?_, List.mem_append_left _⟩
    rcases List.mem_append.mp hmem with hmem | hmem
    · exact hmem
    · rcases List.mem_cons.mp hmem with heq | hmem
      · cases heq
      · exact absurd hmem hnotEnd
  simp only [State.link, State.sent, htaken, hend]

/-- The end -/
theorem link_end (htransport : transport.Documented core)
    (deserializeRequest : Buffer → Except (ErrorObject core) δ) {s : State core β δ}
    (hcarries : s.Carries transport (.readCompletes (.message none))) :
    Link.Step s.link
        { s with server := s.server.readCompletes deserializeRequest (.message none) }.link ∧
      ServerReadStream.history
          (s.server.readCompletes deserializeRequest (.message none)).events =
        ServerReadStream.history s.server.events := by
  obtain ⟨more, hevents, -, hnone, -⟩ :=
    s.server.readCompletes_brings deserializeRequest none
  have hhistory : ServerReadStream.history
      (s.server.readCompletes deserializeRequest (.message none)).events =
      ServerReadStream.history s.server.events := by
    rw [hevents, ServerReadStream.history_append]
    exact (congrArg (ServerReadStream.history s.server.events ++ ·) (hnone rfl)).trans
      (List.append_nil _)
  have hend : (s.server.readCompletes deserializeRequest (.message none)).AtEnd := by
    rw [ServerReadStream.State.AtEnd, hevents]
    exact List.mem_append_right _ List.mem_cons_self
  have hended : { s with
        server := s.server.readCompletes deserializeRequest (.message none) }.link =
      { s.link with failed := s.failed = true, ended := True } := by
    simp only [State.link, State.sent, ServerReadStream.State.taken, hhistory, eq_true hend]
  refine ⟨?_, hhistory⟩
  rw [hended]
  refine .end_ _ id (hcarries.symm.imp_right fun hnoMessage => ?_)
  obtain ⟨hclosed, hall⟩ := htransport.noMessage hnoMessage
  exact ⟨s.closed_of_mem hclosed, hall⟩

/-! ### What a handler may conclude -/

/-- What a stream of requests is. -/
structure Requested (deserializeRequest : Buffer → Except (ErrorObject core) δ)
    (s : State core β δ) : Prop where
  /-- Messages arrive in the order in which they have been written, none of them twice and none of
  them left out, -/
  inOrder : s.server.taken <+: s.sent ∧ s.sent <+: s.client.serialized
  /-- and what is pushed are the values of the first of them. -/
  pushed : ReadLoop.InOrder (ServerReadStream.parse deserializeRequest)
    (ServerReadStream.history s.server.events)
  /-- Where the handler is told that there are no more requests, the call has failed, or the client
  has closed its end, and all that it has sent has been parsed and pushed: everything it has
  written, unless a write has failed. -/
  ended : s.server.AtEnd → s.failed = true ∨
    s.client.Closed ∧
      s.sent.map (ServerReadStream.parse deserializeRequest) =
        (ReadLoop.images (ServerReadStream.history s.server.events)).map some ∧
      (s.client.writeFailed = false → s.sent = s.client.serialized)

/-- What holds of the call, of the stream and of the link between them. -/
structure Inv (deserialize : Buffer → Except ε β)
    (deserializeRequest : Buffer → Except (ErrorObject core) δ) (s : State core β δ) : Prop where
  client : ClientCall.Inv s.client
  reader : ReadLoop.Inv (ClientReadStream.parse deserialize) s.client.reader.loop
  writes : ClientCall.Writes s.client
  link : Link.Inv s.link
  loop : ReadLoop.Inv (ServerReadStream.parse deserializeRequest) s.server.loop
  /-- When the end comes, all that has been read has been pushed. -/
  pushed : s.server.AtEnd → s.failed = false →
    s.server.taken.map (ServerReadStream.parse deserializeRequest) =
      (ReadLoop.images (ServerReadStream.history s.server.events)).map some

/-- While a message is asked for, all that has come has been pushed. -/
theorem pushed_of_outstanding {f : Buffer → Option δ} {loop : ReadLoop.State Buffer δ}
    (h : ReadLoop.Inv f loop) (hpos : 0 < loop.outstanding + loop.giving) :
    (ReadLoop.items loop.history).map f = (ReadLoop.images loop.history).map some := by
  obtain ⟨pairs, hhistory, hpairs⟩ := h.pairs hpos
  rw [hhistory, ReadLoop.items_alternating, ReadLoop.images_alternating, Option.toList_none,
    List.append_nil, List.map_map, List.map_map]
  exact List.map_congr_left hpairs

/-- One step preserves the invariant. The client only extends what was sent; of what the server
receives `Transport.Documented` says where it comes from. -/
theorem Inv.step (htransport : transport.Documented core) {s s' : State core β δ} {a : Act γ}
    (h : Inv deserialize deserializeRequest s)
    (hstep : step transport serialize deserialize deserializeRequest s a = some s') :
    Inv deserialize deserializeRequest s' := by
  cases a with
  | client a =>
      obtain ⟨client, hclient, rfl⟩ := Option.map_eq_some_iff.mp hstep
      obtain ⟨hinv, hreader⟩ := ClientCall.inv_step h.client h.reader hclient
      obtain ⟨more, hextends⟩ := ClientCall.extends_step h.client hclient
      exact ⟨hinv, hreader, h.writes.step hclient, h.link.step (link_client hextends), h.loop,
        h.pushed⟩
  | server a =>
      simp only [RequestStream.step] at hstep
      split at hstep
      · rename_i hcarries
        obtain ⟨server, hserver, rfl⟩ := Option.map_eq_some_iff.mp hstep
        have hloop : ReadLoop.Inv (ServerReadStream.parse deserializeRequest) server.loop :=
          h.loop.step (ServerReadStream.step_refines hserver)
        by_cases ha : ∃ data, a = .readCompletes (.message data)
        · obtain ⟨data, rfl⟩ := ha
          obtain ⟨⟨-, hreads⟩, rfl⟩ := Runs.when_eq_some.mp hserver
          cases data with
          | some data =>
              have htake := link_message deserializeRequest s data
              have hnext : s.sent[s.server.taken.length]? = some data := htransport.inOrder hcarries
              refine ⟨h.client, h.reader, h.writes, ?_, hloop, fun hend hfailed => ?_⟩
              · rw [htake]
                exact h.link.step (.take data hnext)
              · -- After the end there is no next message.
                have hended : s.server.AtEnd := Eq.mp (congrArg Link.State.ended htake) hend
                rcases h.link.ended hended with hfailed' | ⟨-, hall⟩
                · cases hfailed.symm.trans hfailed'
                · exact absurd hall (Link.ne_of_take hnext)
          | none =>
              obtain ⟨hlink, hhistory⟩ := link_end htransport deserializeRequest hcarries
              refine ⟨h.client, h.reader, h.writes, h.link.step hlink, hloop, fun _ _ => ?_⟩
              rw [ServerReadStream.State.taken, hhistory]
              exact pushed_of_outstanding h.loop (Nat.add_pos_left hreads _)
        · obtain ⟨more, hbrings⟩ := ServerReadStream.step_brings hserver
            fun data heq => ha ⟨data, heq⟩
          obtain ⟨hlink, hhistory⟩ := link_brings hbrings
          have hended : server.AtEnd ↔ s.server.AtEnd :=
            iff_of_eq (congrArg Link.State.ended hlink)
          refine ⟨h.client, h.reader, h.writes, hlink ▸ h.link, hloop, fun hend hfailed => ?_⟩
          rw [ServerReadStream.State.taken, hhistory]
          exact h.pushed (hended.mp hend) hfailed
      · cases hstep
  | fail =>
      obtain rfl := Option.some.inj hstep
      have hfail : { s with failed := true }.link = { s.link with failed := True } := by
        simp only [State.link, State.sent]
      refine ⟨h.client, h.reader, h.writes, ?_, h.loop, fun _ hfailed => by cases hfailed⟩
      rw [hfail]
      exact h.link.step .fail

/-- What the invariant says of the two streams is what the handler sees. -/
theorem Inv.requested {s : State core β δ} (h : Inv deserialize deserializeRequest s) :
    Requested deserializeRequest s where
  inOrder := ⟨h.link.inOrder, h.writes.inOrder⟩
  pushed := h.loop.inOrder
  ended hend := by
    cases hfailed : s.failed with
    | true => exact .inl rfl
    | false =>
        rcases h.link.ended hend with hfailed' | ⟨hclosed, htaken⟩
        · cases hfailed.symm.trans hfailed'
        · have hpushed := h.pushed hend hfailed
          rw [show s.server.taken = s.sent from htaken] at hpushed
          exact .inr ⟨hclosed, hpushed, h.writes.all⟩

/-- A call that has just been started satisfies the invariant. -/
theorem inv_initial {client : ClientCall.State β} (h : ClientCall.Inv client)
    (hreader : ReadLoop.Inv (ClientReadStream.parse deserialize) client.reader.loop)
    (hwrites : ClientCall.Writes client) :
    Inv deserialize deserializeRequest ({ client } : State core β δ) where
  client := h
  reader := hreader
  writes := hwrites
  link := ⟨List.nil_prefix, fun h => absurd h List.not_mem_nil⟩
  loop := ReadLoop.inv_initial
  pushed h := absurd h List.not_mem_nil

/-- Requests are bytes. -/
def deserializeBytes (data : Buffer) : Except (ErrorObject Core.ascii) Buffer := .ok data

/-- One message, and then the end. -/
def oneMessage : List (Act Buffer) :=
  [.client (.write (some [7]) .undefined), .server .read,
    .server (.readCompletes (.message (some [7]))), .client (.writeCompletes (.result ())),
    .client .streamEnd, .client .finish, .server (.pushReturns true),
    .server (.readCompletes (.message none))]

example : (Runs.exec (step .direct ClientCall.serializeBuffer ClientCall.deserializeBuffer
      deserializeBytes) { client := ClientCall.bidiCall } oneMessage).map
    (fun s => ReadLoop.images (ServerReadStream.history s.server.events)) = some [[7]] := rfl

end RequestStream

end GrpcNode.NativeCore
