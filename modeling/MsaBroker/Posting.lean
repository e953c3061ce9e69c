import Mathlib.Data.List.Forall2
import MsaBroker.Network
import MsaBroker.Progress

/-! From the clients' `zutil_send` calls to the broker's PULL socket. What a
client posts passes every check of RECV, and the way up keeps the order of each
client's messages. -/
namespace MsaBroker
open CMemory

/-! ## What a client posts -/

/-- A message as `zutil_send` makes it for a client, with a body that fits a
context. -/
structure Posted (S : Site) (d : Nat) (m : Message) : Prop where
  frames : m = ⟨m.header.bytes, [m.body]⟩
  route : m.header.route = zmsgRouteSvc ∨ m.header.route = zmsgRouteInst
  fits : m.body.length ≤ maxMsgsizeByte
  passed : firstCheck m = none
  sender : m.header.from_.Terminated ∧ cstr m.header.from_.bytes = S.uuid d
  dest : m.header.dest.Terminated
  notRouter : m.header.route = zmsgRouteSvc → cstr m.header.dest.bytes ≠ ascii "ROUTER"

theorem posted_callMessage {S : Site} {d : Nat} {z : ZutilCtx} {route : UInt32} {dest body : Bytes} {size : Nat}
    {stamp : Option Bytes} (valid : route = zmsgRouteSvc ∨ route = zmsgRouteInst) (fits : size ≤ maxMsgsizeByte)
    (length : body.length = size) (destText : 0 ∉ dest) (stampText : 0 ∉ stamp.getD [])
    (notRouter : route = zmsgRouteSvc → dest ≠ ascii "ROUTER") (registered : z.regiBody.uuid.Terminated)
    (same : z.regiBody.uuidStr = S.uuid d) : Posted S d (callMessage route dest size stamp z body) := by
  have carries : CarriesCall route dest size stamp z (zutilHead route dest size stamp z) :=
    zutilHead_carries registered destText stampText fits
  have terminated : (zutilHead route dest size stamp z).dest.Terminated :=
    Buf.snprintf_terminated _ _ zmsgCommStrlen_pos
  have sender : (zutilHead route dest size stamp z).from_.Terminated :=
    Buf.snprintf_terminated _ _ zmsgCommStrlen_pos
  refine ⟨?_, ?_, ?_, callMessage_passes fits length, ?_, ?_, fun svc router => ?_⟩
  · rw [callMessage_header, callMessage_body, callMessage]
  · rwa [callMessage_header]
  · rwa [callMessage_body, length]
  · rw [callMessage_header]
    exact ⟨sender, carries.from_.trans same⟩
  · rw [callMessage_header]
    exact terminated
  · rw [callMessage_header] at svc router
    exact notRouter svc (Pipeline.eq_router_of_take (carries.dest.symm.trans router))

namespace Posted

variable {S : Site} {d i : Nat} {m : Message} {host : Host} {r : CtxRef} {ctx : MsgCtx} {old : Buf maxMsgsizeByte}
  {code : ZmsgResp}

theorem destOf (posted : Posted S d m) : Pipeline.destOf host r m = cstr m.header.dest.bytes :=
  Envelop.destStr_of_terminated posted.dest _

/-- SEND refuses it for one reason only. -/
theorem verdict (posted : Posted S d m) {dest : Bytes} {llist : List (Element ZsockCtx)} {res : SendRes}
    (verdict : relayVerdict m.header dest llist res = code) (failed : code ≠ .ok) : code = .failToRoute := by
  rcases relayVerdict_valid dest llist res posted.route with ⟨t, -, -, ok⟩ | fails
  · exact absurd (verdict.symm.trans ok) failed
  · exact verdict.symm.trans fails

theorem refused (posted : Posted S d m) {acts : List Pipeline.Act} {p : Pipeline} {trace : List Obs}
    (run : (Pipeline.machine host).Runs acts p trace) (received : p.seen[i]? = some m)
    (counted : .errMsgReply r i code ∈ trace) : code = .failToRoute := by
  obtain ⟨m', same, failure⟩ := Pipeline.runs_justified run _ counted
  cases received.symm.trans same
  rcases failure with failed | ⟨-, notOk, llist, res, -, refusal⟩
  · cases failed.symm.trans posted.passed
  · exact posted.verdict refusal notOk

/-- The body a relay or its reply sends. -/
theorem body (posted : Posted S d m) (outcome : code = .ok ∨ code = .failToRoute)
    (head : ctx.head = replyHead m code) (buffer : ctx.buffer = bufferAfter m code old) :
    bodySent host r ctx = m.body := by
  have whole : Message.Outcome m code := by
    rcases outcome with rfl | rfl
    · exact .inl ⟨rfl, posted.passed⟩
    · exact .inr (.inr ⟨posted.passed, .inr rfl⟩)
  rw [bodySent_outcome whole head buffer posted.fits]
  rcases outcome with rfl | rfl <;> rfl

end Posted

namespace Network

variable {S : Site} {N N' : Network} {trace out : List Obs} {acts : List Pipeline.Act} {c d n i : Nat}
  {inlet : Inlet} {m : Message}

/-! ## The histories -/

/-- The messages client `d` posted. -/
def posts (d : Nat) (trace : List Obs) : List Message :=
  trace.filterMap fun
    | .posted d' m => if d' = d then some m else none
    | _ => none

/-- Sender and number of each message the broker received. -/
def origin (trace : List Obs) : List (Nat × Nat) :=
  trace.filterMap fun
    | .carried d n => some (d, n)
    | _ => none

/-- The parcels SEND's sockets took. -/
def routed (trace : List Obs) : List Parcel :=
  trace.filterMap fun
    | .routed parcel => some parcel
    | _ => none

/-- The parcels taken by a `zutil_recv`. -/
def yields (trace : List Obs) : List Parcel :=
  trace.filterMap fun
    | .yielded parcel _ _ _ => some parcel
    | _ => none

def brokerTrace (trace : List Obs) : List MsaBroker.Obs :=
  trace.filterMap fun
    | .broker o => some o
    | _ => none

@[simp] theorem posts_append (d : Nat) (tr₁ tr₂ : List Obs) : posts d (tr₁ ++ tr₂) = posts d tr₁ ++ posts d tr₂ :=
  List.filterMap_append

@[simp] theorem origin_append (tr₁ tr₂ : List Obs) : origin (tr₁ ++ tr₂) = origin tr₁ ++ origin tr₂ :=
  List.filterMap_append

@[simp] theorem routed_append (tr₁ tr₂ : List Obs) : routed (tr₁ ++ tr₂) = routed tr₁ ++ routed tr₂ :=
  List.filterMap_append

@[simp] theorem yields_append (tr₁ tr₂ : List Obs) : yields (tr₁ ++ tr₂) = yields tr₁ ++ yields tr₂ :=
  List.filterMap_append

@[simp] theorem brokerTrace_append (tr₁ tr₂ : List Obs) :
    brokerTrace (tr₁ ++ tr₂) = brokerTrace tr₁ ++ brokerTrace tr₂ :=
  List.filterMap_append

/-! ## The way up -/

/-- From the clients' `zutil_send` calls to the broker's PULL socket. -/
structure Upward (S : Site) (trace : List Obs) (N : Network) : Prop where
  count : ∀ d, N.posted d = (posts d trace).length
  made : ∀ d, ∀ m ∈ posts d trace, Posted S d m
  up : ∀ d, Fifo (.lost ∈ trace) (((origin trace).filter (·.1 = d)).map Prod.snd) ((N.up d).map Prod.fst)
    (List.range (N.posted d))
  numbered : ∀ d, ∀ u ∈ N.up d, (posts d trace)[u.1]? = some u.2
  arrived : List.Forall₂ (fun from_ m => (posts from_.1 trace)[from_.2]? = some m) (origin trace)
    (N.pipe.seen ++ N.pipe.pull.queue)

theorem lost_later (out : List Obs) : Obs.lost ∈ trace → Obs.lost ∈ trace ++ out :=
  List.mem_append_left out

/-- What the other parts of the network do leaves the way up as it is. -/
theorem Upward.frame (upward : Upward S trace N) (noPosts : ∀ d, posts d out = []) (noOrigin : origin out = [])
    (count : N'.posted = N.posted) (up : N'.up = N.up)
    (received : N'.pipe.seen ++ N'.pipe.pull.queue = N.pipe.seen ++ N.pipe.pull.queue) :
    Upward S (trace ++ out) N' := by
  refine ⟨fun d => ?_, fun d => ?_, fun d => ?_, fun d => ?_, ?_⟩
  · simp [count, upward.count d, noPosts d]
  · simpa [noPosts d] using upward.made d
  · simpa [noOrigin, count, up] using (upward.up d).weaken (lost_later out)
  · simpa [noPosts d, up] using upward.numbered d
  · simpa [noOrigin, noPosts, received] using upward.arrived

/-- Everything the broker received, and everything still on its way, was posted. -/
theorem Upward.received (upward : Upward S trace N) (member : m ∈ N.pipe.seen ++ N.pipe.pull.queue) :
    ∃ d, Posted S d m := by
  obtain ⟨i, inside, rfl⟩ := List.getElem_of_mem member
  have length := upward.arrived.length_eq
  have posted := (List.forall₂_iff_get.mp upward.arrived).2 i (by omega) inside
  exact ⟨_, upward.made _ _ (List.mem_of_getElem? posted)⟩

/-- A client posts a message. -/
theorem Upward.post {z : ZutilCtx} (upward : Upward S trace N) (made : Posted S d m) :
    Upward S (trace ++ [.posted d m]) { N with
      client := Function.update N.client d z
      posted := Function.update N.posted d (N.posted d + 1)
      up := Function.update N.up d (N.up d ++ [(N.posted d, m)]) } := by
  have own : posts d [.posted d m] = [m] := by simp [posts]
  have others {d' : Nat} (other : d' ≠ d) : posts d' [.posted d m] = [] := by simp [posts, Ne.symm other]
  refine ⟨fun d' => ?_, fun d' m' member => ?_, fun d' => ?_, fun d' u member => ?_, ?_⟩
  · by_cases same : d' = d
    · subst same
      simp [own, upward.count d']
    · simp [others same, same, upward.count d']
  · by_cases same : d' = d
    · subst same
      rcases List.mem_append.mp (posts_append d' _ _ ▸ member) with earlier | last
      · exact upward.made d' m' earlier
      · rw [own] at last
        rw [List.mem_singleton.mp last]
        exact made
    · rw [posts_append, others same, List.append_nil] at member
      exact upward.made d' m' member
  · have before := (upward.up d').weaken (lost_later [.posted d m])
    by_cases same : d' = d
    · subst same
      simpa [origin, List.range_succ] using before.push (N.posted d')
    · simpa [origin, same] using before
  · by_cases same : d' = d
    · subst same
      simp only [Function.update_self] at member
      rw [posts_append, own]
      rcases List.mem_append.mp member with earlier | last
      · exact getElem?_later (upward.numbered d' u earlier)
      · rw [List.mem_singleton.mp last, upward.count d']
        exact List.getElem?_concat_length ..
    · simp only [Function.update_of_ne same] at member
      rw [posts_append, others same, List.append_nil]
      exact upward.numbered d' u member
  · have nothing : origin [Obs.posted d m] = [] := rfl
    rw [origin_append, nothing, List.append_nil]
    exact upward.arrived.imp fun from_ m' known => by
      rw [posts_append]
      exact getElem?_later known

/-- The next message of a client reaches the broker. -/
theorem Upward.carry {up : List (Nat × Message)} (upward : Upward S trace N) (next : N.up d = (n, m) :: up) :
    Upward S (trace ++ [.carried d n]) { N with
      up := Function.update N.up d up, pipe := { N.pipe with pull := N.pipe.pull.arrive m } } := by
  have silent (d' : Nat) : posts d' [.carried d n] = [] := rfl
  refine ⟨fun d' => ?_, fun d' => ?_, fun d' => ?_, fun d' u member => ?_, ?_⟩
  · simp [silent, upward.count d']
  · simpa [silent] using upward.made d'
  · have before := (upward.up d').weaken (lost_later [.carried d n])
    by_cases same : d' = d
    · subst same
      rw [next, List.map_cons] at before
      simpa [origin] using before.pop
    · simpa [origin, same, Ne.symm same] using before
  · rw [posts_append, silent, List.append_nil]
    by_cases same : d' = d
    · subst same
      simp only [Function.update_self] at member
      exact upward.numbered d' u (next ▸ List.mem_cons_of_mem _ member)
    · simp only [Function.update_of_ne same] at member
      exact upward.numbered d' u member
  · have known : (posts d trace)[n]? = some m := upward.numbered d (n, m) (next ▸ List.mem_cons_self)
    have carried : origin [Obs.carried d n] = [(d, n)] := rfl
    simp only [origin_append, carried, posts_append, silent, List.append_nil, InSock.arrive, ← List.append_assoc]
    exact List.rel_append upward.arrived (.cons known .nil)

/-- Or is lost. -/
theorem Upward.lose {up : List (Nat × Message)} (upward : Upward S trace N) (next : N.up d = (n, m) :: up) :
    Upward S (trace ++ [.lost]) { N with up := Function.update N.up d up } := by
  have silent (d' : Nat) : posts d' [.lost] = [] := rfl
  have nothing : origin [.lost] = [] := rfl
  have gone : Obs.lost ∈ trace ++ [.lost] := List.mem_append_right _ (List.mem_singleton_self _)
  refine ⟨fun d' => ?_, fun d' => ?_, fun d' => ?_, fun d' u member => ?_, ?_⟩
  · simp [silent, upward.count d']
  · simpa [silent] using upward.made d'
  · rw [origin_append, nothing, List.append_nil]
    by_cases same : d' = d
    · subst same
      have fewer : (up.map Prod.fst).Sublist ((N.up d').map Prod.fst) := by
        rw [next, List.map_cons]
        exact List.sublist_cons_self _ _
      simpa using (upward.up d').lose fewer gone
    · simpa [same] using (upward.up d').lose (.refl _) gone
  · rw [posts_append, silent, List.append_nil]
    by_cases same : d' = d
    · subst same
      simp only [Function.update_self] at member
      exact upward.numbered d' u (next ▸ List.mem_cons_of_mem _ member)
    · simp only [Function.update_of_ne same] at member
      exact upward.numbered d' u member
  · simpa [nothing, silent] using upward.arrived

end Network

end MsaBroker
