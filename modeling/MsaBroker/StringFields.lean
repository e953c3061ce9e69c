import MsaBroker.RoutingIsolation

/-! Whether a message or an error reply goes where one field of its header says,
and nothing else. `dest` and `from` are read to the first zero byte, so what
lies behind a field without one has its say too; the statements compare any two
messages that agree on the field. -/
namespace MsaBroker
open CMemory

variable {host : Host}

/-! ## Where something was sent -/

/-- The sockets a callback sent on. -/
def socketsOf (obs : List Obs) : List ZsockCtx := (framesOf obs).map Prod.fst

/-- The identity frames among what it sent, each with its socket. -/
def identitiesOf (obs : List Obs) : List (ZsockCtx × Bytes) :=
  (framesOf obs).filterMap fun
    | (zsockCtx, .identity uuid) => some (zsockCtx, uuid)
    | _ => none

/-- The same sockets and the same identity frames, none longer than a field,
whatever became of each `zmq_send`. -/
structure SameWay (first second : List Obs) : Prop where
  sockets : ∀ zsockCtx, zsockCtx ∈ socketsOf first ↔ zsockCtx ∈ socketsOf second
  identities : identitiesOf first = identitiesOf second
  short : ∀ f ∈ identitiesOf first, f.2.length ≤ zmsgCommStrlen

/-- The context holds message `m`, which RECV let through. -/
structure HoldsPassed (p : Pipeline) (r : CtxRef) (m : Message) : Prop where
  passed : firstCheck m = none
  head : (p.pool.read r).head = m.header

/-- The context holds the reply to message `m`, rejected for this reason. -/
structure HoldsRejected (p : Pipeline) (r : CtxRef) (m : Message) (code : ZmsgResp) : Prop where
  refuses : m.Refuses code
  head : (p.pool.read r).head = replyHead m code

/-- So it is whenever SEND comes to a relay, -/
theorem runs_holdsPassed {host : Host} {p : Pipeline} {acts : List Pipeline.Act} {trace : List Obs} {r : CtxRef}
    {i : Nat} (run : (Pipeline.machine host).Runs acts p trace) (running : p.send = some (.pushRelay r i)) :
    ∃ m, HoldsPassed p r m := by
  obtain ⟨m, -, passed, head⟩ := Pipeline.runs_relay run running
  exact ⟨m, passed, head⟩

/-- and whenever it comes to a reply. -/
theorem runs_holdsRejected {host : Host} {p : Pipeline} {acts : List Pipeline.Act} {trace : List Obs} {r : CtxRef}
    {i : Nat} (run : (Pipeline.machine host).Runs acts p trace) (running : p.send = some (.routerErrReply r i)) :
    ∃ m code, HoldsRejected p r m code := by
  obtain ⟨m, code, -, refuses, -, head⟩ := Pipeline.runs_reply run running
  exact ⟨m, code, refuses, head⟩

/-- Relays of messages with this route and this `dest` all go the same way, on
any table. -/
def RelayByField (route : UInt32) (dest : Buf zmsgCommStrlen) : Prop :=
  ∀ (host₁ host₂ : Host) (p₁ p₂ : Pipeline) (r₁ r₂ : CtxRef) (i₁ i₂ : Nat) (m₁ m₂ : Message) (res₁ res₂ : SendRes),
    HoldsPassed p₁ r₁ m₁ → HoldsPassed p₂ r₂ m₂ → p₁.zsockLlist = p₂.zsockLlist →
    m₁.header.route = route → m₂.header.route = route → m₁.header.dest = dest → m₂.header.dest = dest →
    SameWay (evsockPushRelay host₁ r₁ i₁ res₁ p₁).2 (evsockPushRelay host₂ r₂ i₂ res₂ p₂).2

/-- Replies to rejected messages with this `from` all go the same way. -/
def ReplyByField (from_ : Buf zmsgCommStrlen) : Prop :=
  ∀ (host₁ host₂ : Host) (p₁ p₂ : Pipeline) (r₁ r₂ : CtxRef) (i₁ i₂ : Nat) (m₁ m₂ : Message)
    (code₁ code₂ : ZmsgResp) (res₁ res₂ : SendRes),
    HoldsRejected p₁ r₁ m₁ code₁ → HoldsRejected p₂ r₂ m₂ code₂ → p₁.zsockLlist = p₂.zsockLlist →
    m₁.header.from_ = from_ → m₂.header.from_ = from_ →
    SameWay (evsockRouterErrReply host₁ r₁ i₁ res₁ p₁).2 (evsockRouterErrReply host₂ r₂ i₂ res₂ p₂).2

/-! ## An attempt goes to its target -/

variable {p : Pipeline} {r : CtxRef} {i : Nat} {res : SendRes} {cb : Callback} {ctx : MsgCtx}

/-- The identity frame of a target, where it has one. -/
def Target.identity (t : Target) : List (ZsockCtx × Bytes) := t.uuid.toList.map fun uuid => (t.zsockCtx, uuid)

theorem mem_socketsOf_attempt (t : Target) (zsockCtx : ZsockCtx) :
    zsockCtx ∈ socketsOf (relayAttempt host cb r ctx (some t) res) ↔ zsockCtx = t.zsockCtx := by
  -- a first frame, and every frame, on the target's socket
  have frames : ∃ frame rest, framesOf (relayAttempt host cb r ctx (some t) res) = (t.zsockCtx, frame) :: rest ∧
      ∀ f ∈ rest, f.1 = t.zsockCtx := by
    obtain ⟨socket, uuid⟩ := t
    cases uuid with
    | none => exact ⟨_, framesOf_service host cb r ctx socket res⟩
    | some uuid => exact ⟨_, framesOf_router host cb r ctx socket uuid res⟩
  obtain ⟨frame, rest, sent, same⟩ := frames
  rw [socketsOf, sent, List.map_cons, List.mem_cons, List.mem_map]
  constructor
  · rintro (rfl | ⟨f, member, rfl⟩)
    · rfl
    · exact same f member
  · exact .inl

theorem identitiesOf_attempt (t : Target) :
    identitiesOf (relayAttempt host cb r ctx (some t) res) = t.identity := by
  obtain ⟨socket, uuid⟩ := t
  obtain ⟨routeRes, headRes, bodyRes⟩ := res
  cases uuid <;> by_cases route : routeRes < 0 <;> by_cases head : headRes < 0 <;> by_cases body : bodyRes < 0 <;>
    simp [relayAttempt, relayTo, serviceRelay, routerRelay, msgRelay, handing, identitiesOf, framesOf,
      Target.identity, route, head, body]

/-- Nothing sent, twice. -/
theorem SameWay.nowhere {first second : List Obs} (none₁ : framesOf first = []) (none₂ : framesOf second = []) :
    SameWay first second := by
  refine ⟨fun zsockCtx => ?_, ?_, ?_⟩
  · simp [socketsOf, none₁, none₂]
  · simp [identitiesOf, none₁, none₂]
  · simp [identitiesOf, none₁]

/-- Two attempts on one target go the same way, if its identity fits a field. -/
theorem SameWay.attempt {host₁ host₂ : Host} {cb₁ cb₂ : Callback} {r₁ r₂ : CtxRef} {ctx₁ ctx₂ : MsgCtx}
    {res₁ res₂ : SendRes} {first second : List Obs} (target : Option Target)
    (attempt₁ : framesOf first = framesOf (relayAttempt host₁ cb₁ r₁ ctx₁ target res₁))
    (attempt₂ : framesOf second = framesOf (relayAttempt host₂ cb₂ r₂ ctx₂ target res₂))
    (short : ∀ t uuid, target = some t → t.uuid = some uuid → uuid.length ≤ zmsgCommStrlen) :
    SameWay first second := by
  cases target with
  | none => exact .nowhere attempt₁ attempt₂
  | some t =>
    have identities₁ : identitiesOf first = t.identity := by
      rw [identitiesOf, attempt₁]
      exact identitiesOf_attempt t
    have identities₂ : identitiesOf second = t.identity := by
      rw [identitiesOf, attempt₂]
      exact identitiesOf_attempt t
    refine ⟨fun zsockCtx => ?_, identities₁.trans identities₂.symm, ?_⟩
    · have sent₁ : zsockCtx ∈ socketsOf first ↔ zsockCtx = t.zsockCtx := by
        rw [socketsOf, attempt₁]
        exact mem_socketsOf_attempt t zsockCtx
      have sent₂ : zsockCtx ∈ socketsOf second ↔ zsockCtx = t.zsockCtx := by
        rw [socketsOf, attempt₂]
        exact mem_socketsOf_attempt t zsockCtx
      exact sent₁.trans sent₂.symm
    · rw [identities₁]
      intro f member
      obtain ⟨uuid, there, rfl⟩ := List.mem_map.mp member
      exact short t uuid rfl (Option.mem_toList.mp there)

/-- The frames of an error reply: an attempt on the router, to the string at
`from`. -/
theorem framesOf_reply {e : Element ZsockCtx} (router : getElement (ascii "ROUTER") p.zsockLlist = some e) :
    framesOf (evsockRouterErrReply host r i res p).2 =
      framesOf (relayAttempt host (.routerErrReply r i) r (p.pool.read r)
        (some ⟨e.data, some ((p.pool.read r).head.fromStr (host.afterHead r))⟩) res) := by
  rw [evsockRouterErrReply, router]
  simp [framesOf, relayAttempt, relayTo]

/-! ## A field with a terminator -/

theorem relayByField_of_terminated {route : UInt32} {dest : Buf zmsgCommStrlen} (terminated : dest.Terminated) :
    RelayByField route dest := by
  intro host₁ host₂ p₁ p₂ r₁ r₂ i₁ i₂ m₁ m₂ res₁ res₂ held₁ held₂ table route₁ route₂ dest₁ dest₂
  have name₁ : relayDest host₁ p₁ r₁ = cstr dest.bytes := by
    rw [relayDest, held₁.head, Envelop.destStr_of_terminated (dest₁ ▸ terminated), dest₁]
  have name₂ : relayDest host₂ p₂ r₂ = cstr dest.bytes := by
    rw [relayDest, held₂.head, Envelop.destStr_of_terminated (dest₂ ▸ terminated), dest₂]
  have target : relayTarget (p₂.pool.read r₂).head (cstr dest.bytes) p₂.zsockLlist =
      relayTarget (p₁.pool.read r₁).head (cstr dest.bytes) p₁.zsockLlist := by
    rw [held₁.head, held₂.head, relayTarget, relayTarget, route₁, route₂, table]
  refine SameWay.attempt _ (name₁ ▸ framesOf_relay) (target ▸ name₂ ▸ framesOf_relay) ?_
  intro t uuid chosen routed
  have short := cstr_length_lt terminated
  rw [dest.size_eq] at short
  unfold relayTarget at chosen
  split at chosen
  · obtain ⟨e, -, rfl⟩ := Option.map_eq_some_iff.mp chosen
    cases routed
  · split at chosen
    · obtain ⟨e, -, rfl⟩ := Option.map_eq_some_iff.mp chosen
      cases routed
      exact short.le
    · cases chosen

theorem relayByField_of_other {route : UInt32} {dest : Buf zmsgCommStrlen} (notSvc : route ≠ zmsgRouteSvc)
    (notInst : route ≠ zmsgRouteInst) : RelayByField route dest := by
  intro host₁ host₂ p₁ p₂ r₁ r₂ i₁ i₂ m₁ m₂ res₁ res₂ held₁ held₂ table route₁ route₂ dest₁ dest₂
  have nowhere {host : Host} {p : Pipeline} {r : CtxRef} {m : Message} (held : HoldsPassed p r m)
      (same : m.header.route = route) :
      relayTarget (p.pool.read r).head (relayDest host p r) p.zsockLlist = none := by
    simp [relayTarget, held.head, same, notSvc, notInst]
  apply SameWay.nowhere
  · rw [framesOf_relay, nowhere held₁ route₁]
    rfl
  · rw [framesOf_relay, nowhere held₂ route₂]
    rfl

theorem replyByField_of_terminated {from_ : Buf zmsgCommStrlen} (terminated : from_.Terminated) :
    ReplyByField from_ := by
  intro host₁ host₂ p₁ p₂ r₁ r₂ i₁ i₂ m₁ m₂ code₁ code₂ res₁ res₂ held₁ held₂ table from₁ from₂
  have name {host : Host} {p : Pipeline} {r : CtxRef} {m : Message} {code : ZmsgResp}
      (held : HoldsRejected p r m code) (same : m.header.from_ = from_) :
      (p.pool.read r).head.fromStr (host.afterHead r) = cstr from_.bytes := by
    have sender : (p.pool.read r).head.from_ = from_ := by
      rw [held.head, (replyHead_addressed held.refuses).2, same]
    rw [Envelop.fromStr_of_terminated (sender ▸ terminated), sender]
  cases router : getElement (ascii "ROUTER") p₁.zsockLlist with
  | none =>
    have router₂ : getElement (ascii "ROUTER") p₂.zsockLlist = none := table ▸ router
    apply SameWay.nowhere
    · simp [evsockRouterErrReply, router, framesOf]
    · simp [evsockRouterErrReply, router₂, framesOf]
  | some e =>
    have router₂ : getElement (ascii "ROUTER") p₂.zsockLlist = some e := table ▸ router
    refine SameWay.attempt _ (name held₁ from₁ ▸ framesOf_reply router) (name held₂ from₂ ▸ framesOf_reply router₂) ?_
    rintro t uuid ⟨⟩ ⟨⟩
    have short := cstr_length_lt terminated
    rw [from_.size_eq] at short
    exact short.le

/-! ## A field without one -/

/-- A message whose header is `h` as it is. -/
def Envelop.sent (h : Envelop) (body : Bytes) : Message := ⟨h.bytes, [body]⟩

@[simp] theorem Envelop.sent_header (h : Envelop) (body : Bytes) : (h.sent body).header = h :=
  Envelop.store_sent _ h

theorem firstCheck_sent (h : Envelop) (body : Bytes) :
    firstCheck (h.sent body) =
      if h.type ≠ zmsgTraffic then some .failInvalidType
      else if recvLength body ≠ h.nBytes then some .failDiffRecv else none := by
  have rest : (h.sent body).rest = [body] := rfl
  rw [firstCheck, Envelop.sent_header, rest]

/-- The header of a message for `dest` with a body of `nBytes` bytes. -/
def headed (route : UInt32) (dest : Buf zmsgCommStrlen) (nBytes : Int32) : Envelop :=
  { Envelop.zero with type := zmsgTraffic, route, dest, nBytes }

/-- A pipeline with this header in the first slot and this table. -/
def Pipeline.holding (h : Envelop) (llist : List (Element ZsockCtx)) : Pipeline :=
  { (Pipeline.init .bare).setHead (.slot 0) h with zsockLlist := llist }

variable {route : UInt32} {dest from_ : Buf zmsgCommStrlen} {llist : List (Element ZsockCtx)}

theorem headed_passes {body : Bytes} {nBytes : Int32} (length : recvLength body = nBytes) :
    HoldsPassed (.holding (headed route dest nBytes) llist) (.slot 0) ((headed route dest nBytes).sent body) := by
  refine ⟨?_, (Envelop.sent_header _ _).symm⟩
  rw [firstCheck_sent]
  simp [headed, length]

/-- The declared length is part of the name. -/
theorem headed_relayDest (plain : ¬ dest.Terminated) {nBytes : Int32} {b : UInt8} {bs : Bytes} (text : b ≠ 0)
    (declared : i32Bytes nBytes = b :: 0 :: bs) :
    relayDest .bare (.holding (headed route dest nBytes) llist) (.slot 0) = dest.bytes ++ [b] := by
  have field : (headed route dest nBytes).dest.bytes = dest.bytes := rfl
  have behind : i32Bytes (headed route dest nBytes).nBytes = b :: 0 :: bs := declared
  have memory : (headed route dest nBytes).destStr [] = dest.bytes ++ [b] := by
    rw [Envelop.destStr, List.append_nil, Envelop.fromDest, field, behind, cstr_append_of_plain _ plain]
    simp [cstr, text]
  exact memory

/-- The router, and nothing else. -/
def routerOnly : Element ZsockCtx := ⟨ascii "ROUTER", newZsock .bare (ascii "ROUTER") .router ⟨0, []⟩⟩

/-- To an instance, the name that ran on is sent as the identity. -/
theorem headed_identities (plain : ¬ dest.Terminated) {nBytes : Int32} {b : UInt8} {bs : Bytes} (text : b ≠ 0)
    (declared : i32Bytes nBytes = b :: 0 :: bs) (res : SendRes) :
    identitiesOf (evsockPushRelay .bare (.slot 0) 0 res
      (.holding (headed zmsgRouteInst dest nBytes) [routerOnly])).2 = [(routerOnly.data, dest.bytes ++ [b])] := by
  have target : relayTarget (headed zmsgRouteInst dest nBytes) (dest.bytes ++ [b]) [routerOnly] =
      some ⟨routerOnly.data, some (dest.bytes ++ [b])⟩ := rfl
  rw [identitiesOf, framesOf_relay, headed_relayDest plain text declared]
  refine (congrArg (fun t => identitiesOf (relayAttempt _ _ _ _ t res)) target).trans ?_
  rw [identitiesOf_attempt]
  rfl

/-- To a service, a socket of the longer name is found by one length only. -/
theorem headed_sockets (plain : ¬ dest.Terminated) {nBytes : Int32} {b : UInt8} {bs : Bytes} (text : b ≠ 0)
    (declared : i32Bytes nBytes = b :: 0 :: bs) (res : SendRes) (e : Element ZsockCtx) :
    e.data ∈ socketsOf (evsockPushRelay .bare (.slot 0) 0 res
      (.holding (headed zmsgRouteSvc dest nBytes) [e])).2 ↔ e.key = dest.bytes ++ [b] := by
  have lookup : relayTarget (headed zmsgRouteSvc dest nBytes) (dest.bytes ++ [b]) [e] =
      if e.key = dest.bytes ++ [b] then some ⟨e.data, none⟩ else none := by
    by_cases same : e.key = dest.bytes ++ [b] <;>
      simp [relayTarget, headed, getElement, strcmp_eq_zero_iff, same]
  rw [socketsOf, framesOf_relay, headed_relayDest plain text declared]
  have sent := congrArg (fun t => e.data ∈ socketsOf (relayAttempt .bare (.pushRelay (.slot 0) 0) (.slot 0)
    ((Pipeline.holding (headed zmsgRouteSvc dest nBytes) [e]).pool.read (.slot 0)) t res)) lookup
  refine (iff_of_eq sent).trans ?_
  split
  · rename_i same
    exact iff_of_true ((mem_socketsOf_attempt ⟨e.data, none⟩ e.data).mpr rfl) same
  · rename_i other
    exact iff_of_false List.not_mem_nil other

private theorem i32Bytes_one : i32Bytes 1 = 1 :: 0 :: [0, 0] := rfl

private theorem i32Bytes_two : i32Bytes 2 = 2 :: 0 :: [0, 0] := rfl

/-- Bodies of one and of two bytes tell two such messages apart. -/
theorem not_relayByField (plain : ¬ dest.Terminated) (route : UInt32)
    (valid : route = zmsgRouteSvc ∨ route = zmsgRouteInst) : ¬ RelayByField route dest := by
  intro byField
  have length₁ : recvLength [0] = 1 := rfl
  have length₂ : recvLength [0, 0] = 2 := rfl
  have same := fun llist => byField .bare .bare (.holding (headed route dest 1) llist)
    (.holding (headed route dest 2) llist) _ _ 0 0 _ _ ⟨0, 0, 0⟩ ⟨0, 0, 0⟩
    (headed_passes length₁) (headed_passes length₂) rfl
    (congrArg Envelop.route (Envelop.sent_header (headed route dest 1) [0]))
    (congrArg Envelop.route (Envelop.sent_header (headed route dest 2) [0, 0]))
    (congrArg Envelop.dest (Envelop.sent_header (headed route dest 1) [0]))
    (congrArg Envelop.dest (Envelop.sent_header (headed route dest 2) [0, 0]))
  rcases valid with rfl | rfl
  · -- a service whose name is `dest` and the first length
    let e : Element ZsockCtx := ⟨dest.bytes ++ [1], routerOnly.data⟩
    have found := (headed_sockets plain (by decide) i32Bytes_one ⟨0, 0, 0⟩ e).mpr rfl
    have again := (headed_sockets plain (by decide) i32Bytes_two ⟨0, 0, 0⟩ e).mp (((same [e]).sockets e.data).mp found)
    have lengths : [(1 : UInt8)] = [2] := List.append_cancel_left again
    cases lengths
  · have first := headed_identities plain (by decide) i32Bytes_one ⟨0, 0, 0⟩
    have second := headed_identities plain (by decide) i32Bytes_two ⟨0, 0, 0⟩
    have equal := (same [routerOnly]).identities
    rw [first, second] at equal
    simp at equal

/-- A registration that strayed to the broker's PULL socket: not of the type
RECV takes. -/
def strayed (from_ : Buf zmsgCommStrlen) : Envelop :=
  { Envelop.zero with type := zmsgRegi, from_, dest := (Buf.zero _).snprintf (ascii "a") }

theorem strayed_rejected (from_ : Buf zmsgCommStrlen) (llist : List (Element ZsockCtx)) :
    HoldsRejected (.holding (replyHead ((strayed from_).sent []) .failInvalidType) llist) (.slot 0)
      ((strayed from_).sent []) .failInvalidType := by
  refine ⟨.inl ?_, rfl⟩
  rw [firstCheck_sent]
  rfl

/-- The reply to it is addressed to `from` and `dest` in one. -/
theorem strayed_identities (plain : ¬ from_.Terminated) (res : SendRes) :
    identitiesOf (evsockRouterErrReply .bare (.slot 0) 0 res
      (.holding (replyHead ((strayed from_).sent []) .failInvalidType) [routerOnly])).2 =
      [(routerOnly.data, from_.bytes ++ ascii "a")] := by
  have name : (replyHead ((strayed from_).sent []) .failInvalidType).fromStr [] = from_.bytes ++ ascii "a" := by
    have sender : (replyHead ((strayed from_).sent []) .failInvalidType).from_ = from_ := by
      simp [replyHead, Envelop.reply, strayed]
    have behind : (replyHead ((strayed from_).sent []) .failInvalidType).dest = (strayed from_).dest := by
      simp [replyHead, Envelop.reply]
    rw [Envelop.fromStr, List.append_nil, Envelop.fromFrom, sender, cstr_append_of_plain _ plain, Envelop.fromDest,
      behind]
    exact congrArg _ (Buf.cstr_snprintf _ _ zmsgCommStrlen_pos (by decide))
  have router : getElement (ascii "ROUTER") [routerOnly] = some routerOnly := rfl
  rw [identitiesOf, framesOf_reply router]
  refine (identitiesOf_attempt _).trans ?_
  exact congrArg (fun uuid => [(routerOnly.data, uuid)]) name

theorem not_replyByField (plain : ¬ from_.Terminated) : ¬ ReplyByField from_ := by
  intro byField
  have held := strayed_rejected from_ [routerOnly]
  have sender : ((strayed from_).sent []).header.from_ = from_ := congrArg Envelop.from_ (Envelop.sent_header _ _)
  have short := (byField .bare .bare _ _ _ _ 0 0 _ _ _ _ ⟨0, 0, 0⟩ ⟨0, 0, 0⟩ held held rfl sender sender).short
  rw [strayed_identities plain] at short
  have long : (from_.bytes ++ ascii "a").length ≤ zmsgCommStrlen := short _ List.mem_cons_self
  rw [List.length_append, from_.size_eq] at long
  exact absurd long (by decide)

/-! ## The law -/

/-- **Where a message or a reply goes is decided by one field exactly when that
field has a terminator of its own.** A route that is no route goes nowhere
whatever `dest` holds. -/
theorem addressed_by_field_iff (route : UInt32) (dest from_ : Buf zmsgCommStrlen) :
    (RelayByField route dest ↔ (route = zmsgRouteSvc ∨ route = zmsgRouteInst → dest.Terminated)) ∧
      (ReplyByField from_ ↔ from_.Terminated) := by
  constructor
  · constructor
    · intro byField valid
      by_contra plain
      exact not_relayByField plain route valid byField
    · intro ends
      by_cases valid : route = zmsgRouteSvc ∨ route = zmsgRouteInst
      · exact relayByField_of_terminated (ends valid)
      · exact relayByField_of_other (fun svc => valid (.inl svc)) fun inst => valid (.inr inst)
  · constructor
    · intro byField
      by_contra plain
      exact not_replyByField plain byField
    · exact replyByField_of_terminated

/-- A `dest` of 128 letters. -/
def unterminated : Buf zmsgCommStrlen := ⟨List.replicate 128 97, List.length_replicate⟩

/-- Two messages for one instance, with a `dest` of 128 letters: RECV lets both
through, and the length of the body is part of the identity. -/
theorem length_in_identity :
    HoldsPassed (.holding (headed zmsgRouteInst unterminated 1) [routerOnly]) (.slot 0)
        ((headed zmsgRouteInst unterminated 1).sent [0]) ∧
      HoldsPassed (.holding (headed zmsgRouteInst unterminated 2) [routerOnly]) (.slot 0)
        ((headed zmsgRouteInst unterminated 2).sent [0, 0]) ∧
      identitiesOf (evsockPushRelay .bare (.slot 0) 0 ⟨0, 0, 0⟩
        (.holding (headed zmsgRouteInst unterminated 1) [routerOnly])).2 =
          [(routerOnly.data, unterminated.bytes ++ [1])] ∧
      identitiesOf (evsockPushRelay .bare (.slot 0) 0 ⟨0, 0, 0⟩
        (.holding (headed zmsgRouteInst unterminated 2) [routerOnly])).2 =
          [(routerOnly.data, unterminated.bytes ++ [2])] ∧
      ¬ RelayByField zmsgRouteInst unterminated := by
  have plain : ¬ unterminated.Terminated := by decide
  exact ⟨headed_passes rfl, headed_passes rfl, headed_identities plain (by decide) i32Bytes_one _,
    headed_identities plain (by decide) i32Bytes_two _, not_relayByField plain _ (.inr rfl)⟩

end MsaBroker
