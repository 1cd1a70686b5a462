import Edgessh.Lib.Trace
import Edgessh.Russh.Client.HostKey

/-!
# The replies to the client's global requests

A reply to a GLOBAL_REQUEST has no number, so the session keeps a queue of the calls that wait for
one. `outstanding` reads off the events which requests wait, in the order in which they were
written, and what is due to whom once a reply is there; the queue of the session is that list, and
each call is told what the reply to its own request says, as long as no call puts something into
the queue without a request that asks for a reply.
-/

namespace Edgessh.Russh
open Edgessh.Command Edgessh.Run

/-- The port that a reply to a `tcpip-forward` tells; with no data it is the one that was asked
for. -/
def forwardedPort : Bytes → Option Nat
  | [] => none
  | msg :: r =>
    if msg = Msg.requestSuccess then
      if r = [] then some 0 else (decodeU32 r).toOption.map Prod.fst
    else none

/-- The call that has made a request, and what a reply to the request says. -/
def GlobalRequestResponse.told (buf : Bytes) :
    GlobalRequestResponse → Option (ReplyChannel × Answer)
  | keepalive | noMoreSessions => none
  | ping dest => some (dest, .unit)
  | tcpIpForward dest => some (dest, .port (forwardedPort buf))
  | cancelTcpIpForward dest | streamLocalForward dest | cancelStreamLocalForward dest =>
    some (dest, .bool (buf.head? = some Msg.requestSuccess))

theorem GlobalRequestResponse.isResponse_of_told {r : GlobalRequestResponse} {buf : Bytes}
    {p : ReplyChannel × Answer} (h : r.told buf = some p) : p.2.isResponse = true := by
  cases r <;> cases h <;> rfl

namespace Client

/-- A packet that is a reply to a global request. -/
def isReplyPacket (buf : Bytes) : Bool :=
  buf.head? = some Msg.requestSuccess || buf.head? = some Msg.requestFailure

/-- The requests that wait for a reply, as the calls that made them. -/
structure Outstanding where
  /-- The last call. -/
  caller : Option GlobalRequestResponse := none
  queue : List (Option GlobalRequestResponse) := []
  /-- The request that the last reply answers, and the reply, until it is resolved. -/
  answered : Option (GlobalRequestResponse × Bytes) := none
  /-- Who has to be told, and what. -/
  due : Option (ReplyChannel × Answer) := none

namespace Outstanding

/-- A GLOBAL_REQUEST that asks for a reply is put behind the others, and a reply answers the first
one. Once that is resolved, its caller has to be told of the reply. -/
def step (o : Outstanding) : Event → Outstanding
  | .requested response _ _ => { o with caller := response }
  | .wrote (.globalRequest _ wantReply _) =>
    if wantReply then { o with queue := o.queue ++ [o.caller] } else o
  | .received buf =>
    if isReplyPacket buf then
      { o with queue := o.queue.tail, answered := o.queue.head?.join.map (·, buf) }
    else o
  | .resolved _ => { o with answered := none, due := o.answered.bind fun p => p.1.told p.2 }
  | .answer _ a => if a.isResponse then { o with due := none } else o
  | _ => o

/-- The request that a reply answers is what is taken from the queue, and its caller is told, before
the next packet is read; nobody else is. -/
def Allows (o : Outstanding) : Event → Prop
  | .received _ => o.answered = none ∧ o.due = none
  | .resolved response => response = o.answered.map Prod.fst ∧ o.due = none
  | .answer dest a => a.isResponse = true → o.due = some (dest, a)
  | _ => True

end Outstanding

def outstanding (events : List Event) : Outstanding := events.foldl Outstanding.step {}

theorem outstanding_append (events new : List Event) :
    outstanding (events ++ new) = new.foldl Outstanding.step (outstanding events) :=
  List.foldl_append ..

theorem outstanding_append_of_step_eq {events new : List Event}
    (h : ∀ e ∈ new, ∀ o : Outstanding, o.step e = o) :
    outstanding (events ++ new) = outstanding events := by
  rw [outstanding_append]
  generalize outstanding events = o
  induction new with
  | nil => rfl
  | cons e new ih =>
    rw [List.foldl_cons, h e List.mem_cons_self]
    exact ih fun e' he' => h e' (List.mem_cons_of_mem _ he')

/-- An event that does not concern the requests. -/
def Unconcerned (e : Event) : Prop := ∀ o : Outstanding, o.step e = o ∧ o.Allows e

theorem unconcerned_of_isPlain {e : Event} (h : e.isPlain = true) : Unconcerned e := by
  intro o
  cases e with
  | wrote m => cases m <;> simp_all [Event.isPlain, Message.isPlain, Outstanding.step,
      Outstanding.Allows]
  | _ => simp_all [Event.isPlain, Outstanding.step, Outstanding.Allows]

theorem unconcerned_of_isCalm {e : Event} (h : e.isCalm = true) : Unconcerned e := by
  intro o
  cases e <;> simp_all [Event.isCalm, Outstanding.step, Outstanding.Allows]

/-- Every reply resolves the request that it answers, and tells its caller what it says. -/
def Resolves : List Event → Prop := Traced fun pre e => (outstanding pre).Allows e

/-- A call that waits for a reply has asked for one, and there was a key. -/
def isHonestCall : Event → Bool
  | .requested (some _) wantReply encrypted => wantReply && encrypted
  | _ => true

def HonestCalls (events : List Event) : Prop := ∀ e ∈ events, isHonestCall e = true

theorem HonestCalls.of_append {events new : List Event} (h : HonestCalls (events ++ new)) :
    HonestCalls events :=
  fun e he => h e (List.mem_append_left _ he)

/-- The queue of the session is the list of the requests that wait, and nobody has to be told. -/
structure Matching (s : ClientSession) : Prop where
  queue : s.openGlobalRequests.map some = (outstanding s.events).queue
  answered : (outstanding s.events).answered = none
  due : (outstanding s.events).due = none
  keyless : s.common.encrypted = none → s.openGlobalRequests = []
  resolves : Resolves s.events

variable {P : Primitives} {s t : ClientSession}

/-- New events that do not concern the requests. -/
theorem Matching.extend (h : Matching s) (new : List Event) (hev : t.events = s.events ++ new)
    (hnew : ∀ e ∈ new, Unconcerned e) (hq : t.openGlobalRequests = s.openGlobalRequests)
    (henc : t.common.encrypted = none → s.common.encrypted = none) : Matching t := by
  have hout : outstanding t.events = outstanding s.events := by
    rw [hev]
    exact outstanding_append_of_step_eq fun e he o => (hnew e he o).1
  refine ⟨?_, ?_, ?_, fun hnone => hq.trans (h.keyless (henc hnone)), ?_⟩
  · rw [hq, hout, h.queue]
  · rw [hout, h.answered]
  · rw [hout, h.due]
  · rw [hev]
    exact h.resolves.append_of_forall fun _ e he => (hnew e he _).2

theorem Matching.globalRequest {response : Option GlobalRequestResponse} {wantReply : Bool}
    (name data : Bytes) (hw : wantReply = true → response.isSome = true) (h : Matching s)
    (hcalls : HonestCalls (s.globalRequest response name wantReply data).events) :
    Matching (s.globalRequest response name wantReply data) := by
  have hev := Session.events_globalRequest (s := s) response name wantReply data
  have hcall : ∀ r, response = some r → wantReply = true ∧ s.common.encrypted.isSome = true := by
    intro r hr
    have hhonest := hcalls (.requested (some r) wantReply s.common.encrypted.isSome) (by
      rw [hev, hr]
      simp)
    simpa [isHonestCall] using hhonest
  have hq : (s.globalRequest response name wantReply data).openGlobalRequests =
      s.openGlobalRequests ++ response.toList := by
    unfold Session.globalRequest
    dsimp only
    split <;> rfl
  have henc : (s.globalRequest response name wantReply data).common.encrypted = none →
      s.common.encrypted = none := by
    unfold Session.globalRequest
    dsimp only
    split
    · exact id
    · intro hnone
      cases hnone
  have hres : Resolves (s.globalRequest response name wantReply data).events := by
    rw [hev]
    refine h.resolves.append_of_forall fun _ e he => ?_
    rcases List.mem_cons.mp he with rfl | he
    · trivial
    · split at he
      · obtain rfl := List.mem_singleton.mp he
        trivial
      · cases he
  have hrest : ∀ o : Outstanding,
      ((Event.requested response wantReply s.common.encrypted.isSome ::
        if s.common.encrypted.isSome then [Event.wrote (.globalRequest name wantReply data)]
        else []).foldl Outstanding.step o).answered = o.answered ∧
      ((Event.requested response wantReply s.common.encrypted.isSome ::
        if s.common.encrypted.isSome then [Event.wrote (.globalRequest name wantReply data)]
        else []).foldl Outstanding.step o).due = o.due := by
    intro o
    cases s.common.encrypted <;> cases wantReply <;> exact ⟨rfl, rfl⟩
  refine ⟨?_, ?_, ?_, fun hnone => ?_, hres⟩
  · rw [hq, hev, outstanding_append, List.map_append, h.queue]
    cases hr : response with
    | none =>
      have hfalse : wantReply = false := by simpa [hr] using hw
      cases s.common.encrypted <;> simp [Outstanding.step, hfalse]
    | some r =>
      obtain ⟨rfl, hsome⟩ := hcall r hr
      simp [Outstanding.step, hsome]
  · rw [hev, outstanding_append, (hrest _).1, h.answered]
  · rw [hev, outstanding_append, (hrest _).2, h.due]
  · have hnone := henc hnone
    rw [hq, h.keyless hnone]
    cases hr : response with
    | none => rfl
    | some r => simp [hnone, hr] at hcall

/-- A step that takes no reply. -/
theorem Matching.app {pkt : Option Bytes} (hstep : AppStep clientStart P pkt s t)
    (hmsg : firstByte? pkt ≠ some Msg.requestSuccess ∧ firstByte? pkt ≠ some Msg.requestFailure)
    (h : Matching s)
    (hcalls : HonestCalls t.events) : Matching t := by
  have henc : t.common.encrypted = none → s.common.encrypted = none := by
    have hsome := hstep.kept.encrypted_isSome
    intro hnone
    simpa [hnone] using hsome
  rcases hstep.quiet_or_loud with ⟨new, hquiet⟩ | hloud
  · exact h.extend new hquiet.events (fun e he => unconcerned_of_isPlain (hquiet.plain e he))
      hquiet.openGlobalRequests henc
  · cases hloud with
    | @openChannel enc m id window channel chan hc hm hw =>
      refine h.extend _ (Session.events_openChannel ..) ?_ rfl henc
      cases m <;> simp_all [Unconcerned, Outstanding.step, Outstanding.Allows, Message.opens]
    | @account enc id data target hd hc =>
      obtain ⟨ms, hms, hadj⟩ := Encrypted.adjustWindowSize_write id data target enc
      refine h.extend (ms.map .wrote) ?_ ?_ rfl henc
      · simp [Session.adjustWindowSize, hms]
      · intro e he o
        obtain ⟨m, hm, rfl⟩ := List.mem_map.mp he
        obtain ⟨recipient, amount, rfl⟩ := hadj m hm
        exact ⟨rfl, trivial⟩
    | @deliver e hd he =>
      refine h.extend [e] rfl ?_ rfl henc
      cases e <;> simp_all [Unconcerned, Outstanding.step, Outstanding.Allows, Event.delivered]
    | globalRequest name data hw => exact h.globalRequest name data hw hcalls
    | takeReply tell hreply => exact absurd hreply (not_or.mpr hmsg)
    | @answer enc m ha hm hc =>
      refine h.extend [.wrote m] rfl ?_ rfl henc
      cases m <;> simp_all [Unconcerned, Outstanding.step, Outstanding.Allows, Message.isReply]
    | @replyCalled enc m hm hc =>
      refine h.extend [.replyCalled, .wrote m] (by simp) ?_ rfl henc
      cases m <;> simp_all [Unconcerned, Outstanding.step, Outstanding.Allows, Message.isReply]

/-- The invariant, in a run of such calls. -/
def RequestInv (s : ClientSession) : Prop := HonestCalls s.events → Matching s

/-- What is left of it when a turn fails. -/
def RequestEnd (s : ClientSession) : Prop :=
  HonestCalls s.events → Resolves s.events ∧ (outstanding s.events).due = none

/-- A packet has been read, and its reply is still in the queue if it is one. -/
structure Replied (buf : Bytes) (s : ClientSession) : Prop where
  queue : (outstanding s.events).queue =
    if isReplyPacket buf then (s.openGlobalRequests.map some).tail
    else s.openGlobalRequests.map some
  answered : (outstanding s.events).answered =
    if isReplyPacket buf then s.openGlobalRequests.head?.map (·, buf) else none
  due : (outstanding s.events).due = none
  keyless : s.common.encrypted = none → s.openGlobalRequests = []
  resolves : Resolves s.events

def RequestMid (buf : Bytes) (s : ClientSession) : Prop := HonestCalls s.events → Replied buf s

theorem RequestInv.end (h : RequestInv s) : RequestEnd s :=
  fun hc => ⟨(h hc).resolves, (h hc).due⟩

theorem RequestMid.end {buf : Bytes} (h : RequestMid buf s) : RequestEnd s :=
  fun hc => ⟨(h hc).resolves, (h hc).due⟩

theorem RequestInv.calm (hcalm : Calm s t) (h : RequestInv s) : RequestInv t := by
  obtain ⟨new, hev, hnew⟩ := hcalm.events
  intro hc
  rw [hev] at hc
  exact (h hc.of_append).extend new hev (fun e he => unconcerned_of_isCalm (hnew e he))
    hcalm.openGlobalRequests hcalm.encrypted

theorem RequestInv.app {pkt : Option Bytes} (hstep : AppStep clientStart P pkt s t)
    (hmsg : firstByte? pkt ≠ some Msg.requestSuccess ∧ firstByte? pkt ≠ some Msg.requestFailure)
    (h : RequestInv s) : RequestInv t := by
  intro hc
  obtain ⟨new, hev, -⟩ := hstep.events
  exact (h (hev ▸ hc).of_append).app hstep hmsg hc

/-- A packet that is not a reply has nothing to take from the queue. -/
theorem RequestMid.inv {buf : Bytes} (hb : isReplyPacket buf = false) (h : RequestMid buf s) :
    RequestInv s := by
  intro hc
  obtain ⟨hqueue, hanswered, hdue, hkeyless, hres⟩ := h hc
  rw [hb] at hqueue hanswered
  exact ⟨hqueue.symm, hanswered, hdue, hkeyless, hres⟩

theorem RequestMid.calm {buf : Bytes} (hcalm : Calm s t) (h : RequestMid buf s) :
    RequestMid buf t := by
  obtain ⟨new, hev, hnew⟩ := hcalm.events
  have hunconcerned : ∀ e ∈ new, Unconcerned e := fun e he => unconcerned_of_isCalm (hnew e he)
  have hout : outstanding t.events = outstanding s.events := by
    rw [hev]
    exact outstanding_append_of_step_eq fun e he o => (hunconcerned e he o).1
  intro hc
  obtain ⟨hqueue, hanswered, hdue, hkeyless, hres⟩ := h (hev ▸ hc).of_append
  refine ⟨?_, ?_, ?_, fun hnone => ?_, ?_⟩
  · rw [hout, hcalm.openGlobalRequests]
    exact hqueue
  · rw [hout, hcalm.openGlobalRequests]
    exact hanswered
  · rw [hout]
    exact hdue
  · rw [hcalm.openGlobalRequests]
    exact hkeyless (hcalm.encrypted hnone)
  · rw [hev]
    exact hres.append_of_forall fun _ e he => (hunconcerned e he _).2

theorem RequestInv.received {buf : Bytes} (h : RequestInv s) :
    RequestMid buf (s.record (.received buf)) := by
  intro hc
  obtain ⟨hqueue, hanswered, hdue, hkeyless, hres⟩ := h hc.of_append
  have hout : outstanding (s.record (.received buf)).events =
      (outstanding s.events).step (.received buf) := outstanding_append ..
  refine ⟨?_, ?_, ?_, hkeyless, traced_concat.mpr ⟨hres, hanswered, hdue⟩⟩
  · rw [hout, Outstanding.step]
    split
    · exact congrArg List.tail hqueue.symm
    · exact hqueue.symm
  · rw [hout, Outstanding.step]
    split
    · rw [← hqueue]
      show (s.openGlobalRequests.map some).head?.join.map _ = s.openGlobalRequests.head?.map _
      cases s.openGlobalRequests <;> rfl
    · exact hanswered
  · rw [hout, Outstanding.step]
    split <;> exact hdue

/-- The events of a reply: what is taken from the queue is what the reply answers, and who waits for
it is told. -/
theorem settled_of_resolved {buf : Bytes} {events : List Event} {o : Outstanding}
    {response : Option GlobalRequestResponse} (hout : outstanding events = o)
    (hanswered : o.answered = response.map (·, buf)) (hdue : o.due = none)
    (hres : Resolves events) :
    let new := .resolved response ::
      ((response.bind (·.told buf)).map fun p => Event.answer p.1 p.2).toList
    outstanding (events ++ new) = { o with answered := none, due := none } ∧
      Resolves (events ++ new) := by
  have hresolve : Resolves (events ++ [.resolved response]) := by
    refine traced_concat.mpr ⟨hres, ?_, ?_⟩
    · rw [hout, hanswered]
      cases response <;> rfl
    · rw [hout, hdue]
  have hdue' : outstanding (events ++ [.resolved response]) =
      { o with answered := none, due := response.bind (·.told buf) } := by
    rw [outstanding_append, hout, List.foldl_cons, List.foldl_nil, Outstanding.step, hanswered]
    cases response <;> rfl
  cases htold : response.bind (·.told buf) with
  | none =>
    rw [htold] at hdue'
    exact ⟨hdue', hresolve⟩
  | some p =>
    obtain ⟨r, rfl, hr⟩ := Option.bind_eq_some_iff.mp htold
    have hresponse := r.isResponse_of_told hr
    have hsplit : events ++ .resolved (some r) :: [Event.answer p.1 p.2] =
        events ++ [.resolved (some r)] ++ [.answer p.1 p.2] := by simp
    show outstanding (events ++ .resolved (some r) :: [Event.answer p.1 p.2]) = _ ∧
      Resolves (events ++ .resolved (some r) :: [Event.answer p.1 p.2])
    rw [hsplit]
    constructor
    · rw [outstanding_append, hdue', List.foldl_cons, List.foldl_nil, Outstanding.step,
        if_pos hresponse]
    · refine traced_concat.mpr ⟨hresolve, fun _ => ?_⟩
      rw [hdue', htold]

/-- The reply is taken from the queue. -/
theorem RequestMid.takeReply {buf : Bytes}
    {tell : GlobalRequestResponse → Option (ReplyChannel × Answer)}
    (htell : ∀ r, tell r = r.told buf) (hb : isReplyPacket buf = true) (h : RequestMid buf s) :
    RequestInv (s.takeReply tell) := by
  intro hc
  obtain ⟨hqueue, hanswered, hdue, hkeyless, hres⟩ := h hc.of_append
  rw [if_pos hb] at hqueue hanswered
  obtain rfl : tell = fun r => r.told buf := funext htell
  obtain ⟨hout, hresolves⟩ := settled_of_resolved rfl hanswered hdue hres
  refine ⟨?_, ?_, ?_, fun hnone => ?_, hresolves⟩
  · rw [Session.events_takeReply, hout, hqueue]
    exact List.map_tail
  · rw [Session.events_takeReply, hout]
  · rw [Session.events_takeReply, hout]
  · show s.openGlobalRequests.tail = []
    rw [hkeyless hnone]
    rfl

theorem RequestMid.readRequestSuccess {r : Bytes} {pkt : Option Bytes}
    (hmsg : firstByte? pkt = some Msg.requestSuccess) (h : RequestMid (Msg.requestSuccess :: r) s) :
    wp (readRequestSuccess (P := P) hmsg r).run (fun _ t => RequestInv t) (fun _ t => RequestEnd t)
      s := by
  refine h.takeReply (fun response => ?_) rfl
  cases response with
  | tcpIpForward dest =>
    simp only [GlobalRequestResponse.told, forwardedPort, if_true]
    cases decodeU32 r <;> rfl
  | _ => rfl

theorem RequestMid.readRequestFailure {r : Bytes} {pkt : Option Bytes}
    (hmsg : firstByte? pkt = some Msg.requestFailure) (h : RequestMid (Msg.requestFailure :: r) s) :
    wp (readRequestFailure (P := P) hmsg).run (fun _ t => RequestInv t) (fun _ t => RequestEnd t)
      s := by
  refine h.takeReply (fun response => ?_) rfl
  cases response <;> rfl

/-- A reply before there is a key: nothing waits for one. -/
theorem RequestMid.inv_of_keyless {buf : Bytes} (hnone : s.common.encrypted = none)
    (h : RequestMid buf s) : RequestInv s := by
  intro hc
  obtain ⟨hqueue, hanswered, hdue, hkeyless, hres⟩ := h hc
  rw [hkeyless hnone] at hqueue hanswered
  refine ⟨?_, ?_, hdue, hkeyless, hres⟩
  · rw [hqueue, hkeyless hnone]
    split <;> rfl
  · rw [hanswered]
    split <;> rfl

theorem RequestMid.processPacket {buf : Bytes} {env : ClientEnv} (h : RequestMid buf s) :
    wp (processPacket (P := P) env buf).run (fun _ t => RequestInv t) (fun _ t => RequestEnd t)
      s := by
  cases hb : isReplyPacket buf with
  | false =>
    have hmsg : firstByte? (some buf) ≠ some Msg.requestSuccess ∧
        firstByte? (some buf) ≠ some Msg.requestFailure := by
      simpa [isReplyPacket] using hb
    exact wp_mono (Confined.wp_invariant (fun _ _ hstep ht => RequestInv.app hstep hmsg ht) _
      (h.inv hb)) (fun _ _ ht => ht) fun _ _ ht => ht.end
  | true =>
    simp only [Client.processPacket, AppM.encrypted?, Confined.run_bind, Confined.run_read,
      Confined.run_pure, wp_bind, wp_get, wp_pure]
    cases hc : s.common.encrypted with
    | none => exact h.inv_of_keyless hc
    | some enc =>
      dsimp only
      cases buf with
      | nil => cases hb
      | cons msg r =>
        have hmsg : msg = Msg.requestSuccess ∨ msg = Msg.requestFailure := by
          simpa [isReplyPacket] using hb
        cases enc.state with
        | waitingAuthServiceRequest sent accepted =>
          rcases hmsg with rfl | rfl <;> exact h.end
        | waitingAuthRequest request =>
          rcases hmsg with rfl | rfl <;> exact h.end
        | initCompression => exact h.end
        | authenticated =>
          rcases hmsg with rfl | rfl
          · exact h.readRequestSuccess rfl
          · exact h.readRequestFailure rfl

theorem head_of_isReplyPacket {buf : Bytes} (h : isReplyPacket buf = true) :
    buf.head? = some Msg.requestSuccess ∨ buf.head? = some Msg.requestFailure := by
  simpa [isReplyPacket] using h

theorem not_reply_of_isKexMsg {buf : Bytes} (h : isKexMsg buf = true) :
    isReplyPacket buf = false := by
  by_contra hr
  rcases head_of_isReplyPacket (by simpa using hr) with hb | hb <;>
    (rw [isKexMsg, hb] at h; revert h; decide)

theorem not_reply_of_isIgnored {buf : Bytes} (h : isIgnored buf = true) :
    isReplyPacket buf = false := by
  by_contra hr
  rcases head_of_isReplyPacket (by simpa using hr) with hb | hb <;>
    (rw [isIgnored, isSkipped, hb] at h; revert h; decide)

theorem requestRules (P : Primitives) :
    ClientCalm P (fun _ => RequestInv) RequestInv RequestEnd RequestMid where
  start_frame hf h := h.calm (.of_frame hf)
  start_inv h := h
  inv_end := RequestInv.end
  calm := RequestInv.calm
  app hstep h := h.app hstep (by simp)
  received ho h := (h.calm (.opened ho)).received
  mid_calm hcalm _ h := h.calm hcalm
  mid_end := RequestMid.end
  mid_skip hb h := by
    rcases Bool.or_eq_true_iff.mp hb with hb | hb
    · exact h.inv (not_reply_of_isIgnored hb)
    · exact h.inv (not_reply_of_isKexMsg hb)
  process _ h := h.processPacket

/-- In a run of calls that wait for a reply only where they have asked for one, the queue of a
session is the list of the requests that wait, every reply resolves the request that it answers, and
the call that has made the request is told what the reply says, nobody else. -/
theorem openGlobalRequests_eq_outstanding {P : Primitives} {env : ClientEnv}
    {config : ClientConfig} {remoteSshid : Bytes} {labels : List (ClientEnv × ClientInput)}
    {l : ClientLoop} (hrun : run (step P) (start P env config remoteSshid) labels = some l)
    (hcalls : HonestCalls l.session.events) :
    Resolves l.session.events ∧ (outstanding l.session.events).due = none ∧
      (l.running = true →
        l.session.openGlobalRequests.map some = (outstanding l.session.events).queue ∧
          (outstanding l.session.events).answered = none) := by
  have hnew : RequestInv (newSession config remoteSshid) :=
    fun _ => ⟨rfl, rfl, rfl, fun _ => rfl, traced_nil⟩
  have h := (requestRules P).run (fun _ _ => True) (fun _ _ _ _ hi => hi) hnew (along_true _ _) hrun
  obtain ⟨hresolves, hdue⟩ := h.ended hcalls
  refine ⟨hresolves, hdue, fun hr => ?_⟩
  have hmatching := (h.running hr).1 hcalls
  exact ⟨hmatching.queue, hmatching.answered⟩

/-- A client that is not authenticated. -/
def anonymousClient : ClientConfig := { onlyCurve25519 with anonymous := true }

/-- A ping and a `tcpip-forward`, and their replies. -/
def pingAndForward : List (ClientEnv × ClientInput) :=
  packetRun (exchangePackets [7] 215) ++
    [(trustingSeven, .send (.ping 3)), (trustingSeven, .send (.tcpIpForward (some 4) [] 0)),
      (trustingSeven, .receive), (trustingSeven, .packet [Msg.requestSuccess]),
      (trustingSeven, .packet (Msg.requestSuccess :: encodeU32 2222))]

/-- Each is told of its own reply. -/
theorem openGlobalRequests_eq_outstanding_ping : ∃ l,
    run (step .toy) (start .toy trustingSeven anonymousClient []) pingAndForward = some l ∧
    l.running = true ∧
    .answer 3 .unit ∈ l.session.events ∧ .answer 4 (.port (some 2222)) ∈ l.session.events ∧
    Resolves l.session.events ∧ (outstanding l.session.events).due = none ∧
    (l.running = true →
      l.session.openGlobalRequests.map some = (outstanding l.session.events).queue ∧
        (outstanding l.session.events).answered = none) := by
  have hrun : ((run (step .toy) (start .toy trustingSeven anonymousClient [])
      pingAndForward).map fun l =>
      (l.running, l.session.events.contains (.answer 3 .unit),
        l.session.events.contains (.answer 4 (.port (some 2222))),
        l.session.events.all isHonestCall)) = some (true, true, true, true) := by
    decide +kernel
  obtain ⟨l, hl, hp⟩ := Option.map_eq_some_iff.mp hrun
  obtain ⟨hr, hping, hforward, hcalls⟩ := by simpa only [Prod.mk.injEq] using hp
  exact ⟨l, hl, hr, by simpa using hping, by simpa using hforward,
    openGlobalRequests_eq_outstanding hl (List.all_eq_true.mp hcalls)⟩

/-- A keepalive that asks for no reply, a ping, and the reply to the ping. -/
def keepaliveBeforePing : List (ClientEnv × ClientInput) :=
  packetRun (exchangePackets [7] 215) ++
    [(trustingSeven, .send (.keepalive false)), (trustingSeven, .send (.ping 3)),
      (trustingSeven, .receive), (trustingSeven, .packet [Msg.requestSuccess])]

/-- The keepalive takes the reply to the ping. -/
theorem not_openGlobalRequests_eq_outstanding : ∃ l,
    run (step .toy) (start .toy trustingSeven anonymousClient []) keepaliveBeforePing = some l ∧
    l.running = true ∧
    l.session.openGlobalRequests.map some ≠ (outstanding l.session.events).queue ∧
    ¬ Resolves l.session.events := by
  have hqueues : ((run (step .toy) (start .toy trustingSeven anonymousClient [])
      keepaliveBeforePing).map fun l =>
      (l.running, l.session.openGlobalRequests, (outstanding l.session.events).queue)) =
      some (true, [.ping 3], []) := by
    decide +kernel
  have hresolved : ((run (step .toy) (start .toy trustingSeven anonymousClient [])
      keepaliveBeforePing).map fun l =>
      (l.session.events[25]?, (outstanding (l.session.events.take 25)).answered)) =
      some (some (.resolved (some .keepalive)), some (.ping 3, [Msg.requestSuccess])) := by
    decide +kernel
  obtain ⟨l, hl, hp⟩ := Option.map_eq_some_iff.mp hqueues
  obtain ⟨hr, hq, hout⟩ := by simpa only [Prod.mk.injEq] using hp
  rw [hl] at hresolved
  obtain ⟨hev, hans⟩ := by
    simpa only [Option.map_some, Option.some.injEq, Prod.mk.injEq] using hresolved
  refine ⟨l, hl, hr, by simp [hq, hout], fun h => ?_⟩
  have hres := (h.getElem? hev).1
  rw [hans] at hres
  cases hres

end Client

end Edgessh.Russh
