import MsaBroker.Pipeline
import MsaBroker.Registry
import MsaBroker.ZsockList
import MsaBroker.Zutil

/-! Where a client listens for its service and where the broker sends to it. The
client connects to a path made of the svcname as its caller gave it. The broker
binds a path made of what the REGI message carries, which is the svcname used as
a format and cut to the field. -/
namespace MsaBroker
open CMemory

variable {undef : Bytes → Bytes} {ivHome home sysuuid svcname appname : Bytes} {now : Int64}
  {nBytes : Int32} {appls body : ApplsCtx} {reg reg' : Registry} {posted : List Notification}

/-- The svcname a client registers under. -/
theorem zutilInitCreateRegiInfo_svcname (undef : Bytes → Bytes) (sysuuid appname : Bytes)
    (text : 0 ∉ svcname) (doubled : percentDoubled svcname = true) :
    (zutilInitCreateRegiInfo undef sysuuid svcname appname).svcname.Terminated ∧
      (zutilInitCreateRegiInfo undef sysuuid svcname appname).svcnameStr =
        (expand svcname).take (zmsgCommStrlen - 1) := by
  have formatted : formatText undef svcname = expand svcname := if_pos doubled
  have terminated : (zutilInitCreateRegiInfo undef sysuuid svcname appname).svcname.Terminated :=
    Buf.snprintf_terminated _ _ zmsgCommStrlen_pos
  refine ⟨terminated, ?_⟩
  have read := Buf.cstr_snprintf ApplsCtx.zero.svcname [] zmsgCommStrlen_pos (zero_notMem_expand text)
  rw [List.append_nil] at read
  rw [ApplsCtx.svcnameStr_of_terminated terminated, ← read, ← formatted]
  rfl

/-- A REGI message as `zutil_regi` sends it reaches `handle_regi` as it was. -/
theorem subRead_regi (now : Int64) (zmsg : Zmessage) (reg : Registry) (queue : List Message) {head : Envelop}
    (body : ApplsCtx) (regi : head.type = zmsgRegi) (size : head.nBytes = Int32.ofNat sizeofApplsCtx) :
    (subRead now zmsg ⟨[], ⟨head.bytes, [body.bytes]⟩ :: queue⟩ reg).map (fun (_, sub, reg, posted) =>
        (sub, reg, posted)) =
      some (⟨[], queue⟩, handleRegi now (Int32.ofNat sizeofApplsCtx) body reg) := by
  have header : Envelop.ofMem (zmsg.head.mem.store head.bytes) = head := Envelop.store_sent _ head
  have positive : ¬ (recvLength head.bytes).toInt < 0 := by
    have nonneg := recvLength_nonneg head.bytes
    omega
  have length : recvLength body.bytes = Int32.ofNat sizeofApplsCtx := by
    rw [recvLength, body.bytes_length]
    rfl
  simp [subRead, zsockDrainRemainPart_eq, zmqRecv, InSock.recv, InSock.rcvmore, header, positive, length, size,
    regi, ofMem_received _ body.bytes_length]

/-- The record a create notification carries is the one that was received. -/
theorem handleRegi_create (created : .create appls ∈ (handleRegi now nBytes body reg).2) :
    appls = body.setTimestamp now := by
  unfold handleRegi at created
  split at created
  · cases created
  · simp only at created
    split at created
    · cases created
    · split at created
      · simpa using created
      · cases created

/-! ## The two paths -/

/-- `sock` is the socket SEND opens for this client's service: the client sends a
REGI message, MGNT takes it from its SUB socket and posts a create notification,
and SEND runs it, each at any time and in any state of its own. -/
def BindsFor (host : Host) (z : ZutilCtx) (sock : OpenSock) : Prop :=
  ∃ now ctime res head body, (zutilRegi now ctime res z).2 = [head, body] ∧
    ∃ now' zmsg queue reg zmsg' sub' reg' posted appls,
      subRead now' zmsg ⟨[], ⟨head, [body]⟩ :: queue⟩ reg = some (zmsg', sub', reg', posted) ∧
        .create appls ∈ posted ∧
        ∃ p : Pipeline, (evsockPushCreate host appls p).net.opened = p.net.opened ++ [sock]

variable {host : Host} {sock : OpenSock} {z : ZutilCtx}

/-- What a client sends: its registration with the clock reading. -/
theorem zutilRegi_frames {ctime head body : Bytes} {res : ZutilRes}
    (sent : (zutilRegi now ctime res z).2 = [head, body]) :
    ∃ h : Envelop, head = h.bytes ∧ h.type = zmsgRegi ∧ h.nBytes = Int32.ofNat sizeofApplsCtx ∧
      body = (z.regiBody.setTimestamp now).bytes := by
  unfold zutilRegi at sent
  split at sent
  · cases sent
  · simp only at sent
    split at sent
    · cases sent
      exact ⟨_, rfl, rfl, rfl, rfl⟩
    · cases sent

/-- SEND opens a socket under the svcname the client registered. -/
theorem BindsFor.path (binds : BindsFor host z sock) (terminated : z.regiBody.svcname.Terminated) :
    sock.ipcPath = zsockIpcPath host z.regiBody.svcnameStr := by
  obtain ⟨now, ctime, res, head, body, sent, now', zmsg, queue, reg, zmsg', sub', reg', posted, appls, read,
    created, p, opened⟩ := binds
  obtain ⟨h, rfl, regi, size, rfl⟩ := zutilRegi_frames sent
  have handled := subRead_regi now' zmsg reg queue (z.regiBody.setTimestamp now) regi size
  rw [read, Option.map_some, Option.some.injEq, Prod.mk.injEq] at handled
  have posts : posted = (handleRegi now' (Int32.ofNat sizeofApplsCtx) (z.regiBody.setTimestamp now) reg).2 :=
    congrArg Prod.snd handled.2
  have same : appls = (z.regiBody.setTimestamp now).setTimestamp now' := handleRegi_create (posts ▸ created)
  have kept : (z.regiBody.setTimestamp now).svcname.Terminated := terminated
  have name : appls.svcnameStr = z.regiBody.svcnameStr := by
    rw [same, ApplsCtx.setTimestamp_svcnameStr now' kept, ApplsCtx.setTimestamp_svcnameStr now terminated]
  rw [← name]
  have opened : (addZsockToList host appls.svcnameStr .push p.net p.zsockLlist).1.opened =
      p.net.opened ++ [sock] := opened
  unfold addZsockToList at opened
  split at opened
  · simp at opened
  · have new : [sock] = [_] := (List.append_cancel_left opened).symm
    cases new
    rfl

/-- The first client of a broker gets a socket, whatever its name but that of the
router's own entry. -/
theorem BindsFor.first (host : Host) (terminated : z.regiBody.svcname.Terminated)
    (new : z.regiBody.timestamp = 0) (named : z.regiBody.svcnameStr ≠ [])
    (other : z.regiBody.svcnameStr ≠ ascii "ROUTER") :
    BindsFor host z ⟨4, .push, zsockIpcPath host z.regiBody.svcnameStr⟩ := by
  obtain ⟨h, sent, regi, size⟩ : ∃ h : Envelop,
      (zutilRegi 1 [] ⟨1, 1⟩ z).2 = [h.bytes, (z.regiBody.setTimestamp 1).bytes] ∧
        h.type = zmsgRegi ∧ h.nBytes = Int32.ofNat sizeofApplsCtx := by
    unfold zutilRegi
    rw [new, if_neg (by decide)]
    exact ⟨_, rfl, rfl, rfl⟩
  have handled := subRead_regi 1 ⟨.zero, .zero _⟩ ⟨[], []⟩ [] (z.regiBody.setTimestamp 1) regi size
  obtain ⟨⟨zmsg', sub', reg', posted⟩, read, same⟩ := Option.map_eq_some_iff.mp handled
  have kept : (z.regiBody.setTimestamp 1).svcname.Terminated := terminated
  have name : ((z.regiBody.setTimestamp 1).setTimestamp 1).svcnameStr = z.regiBody.svcnameStr := by
    rw [ApplsCtx.setTimestamp_svcnameStr 1 kept, ApplsCtx.setTimestamp_svcnameStr 1 terminated]
  have posts : posted = [.create ((z.regiBody.setTimestamp 1).setTimestamp 1)] := by
    have handled := congrArg (fun out => out.2.2) same
    simp only at handled
    rw [handled]
    have room : (Int32.ofNat sizeofApplsCtx).toInt = sizeofApplsCtx := by decide
    have counted : countSvc ((z.regiBody.setTimestamp 1).setTimestamp 1).svcnameStr
        [⟨((z.regiBody.setTimestamp 1).setTimestamp 1).uuidStr, (z.regiBody.setTimestamp 1).setTimestamp 1⟩] = 1 := by
      rw [countSvc_eq_one, findSvcExist_cons, name]
      simpa [Element.svc, name, findSvcExist] using named
    simp [handleRegi, Registry.list, getElement, addElement, room, counted]
  refine ⟨1, [], ⟨1, 1⟩, _, _, sent, 1, _, [], ⟨[], []⟩, zmsg', sub', reg', posted, _, read,
    posts ▸ List.mem_singleton_self _, Pipeline.init host, ?_⟩
  rw [← name] at other ⊢
  have absent : getElement ((z.regiBody.setTimestamp 1).setTimestamp 1).svcnameStr (Pipeline.init host).zsockLlist =
      none := by
    have keys : (Pipeline.init host).zsockLlist.map Element.key = [ascii "ROUTER"] := rfl
    rw [getElement_eq_none, keys]
    simpa using other
  have next : (Pipeline.init host).net.next = 4 := rfl
  simp [evsockPushCreate, addZsockToList, absent, next]

/-- **When client and broker agree on the endpoint.** With `IV_HOME` the same on
both sides, the path SEND binds for a client's service is the one the client
listens on if and only if the svcname has no `'%'` and fits its field. -/
theorem endpoint_agrees_iff (text : 0 ∉ svcname) (doubled : percentDoubled svcname = true)
    (sameHome : host.ipcPath = mainIpcPath (some ivHome) home)
    (binds : BindsFor host (zutilInit undef ivHome sysuuid svcname appname).1 sock) :
    sock.ipcPath = (zutilInit undef ivHome sysuuid svcname appname).2.pull ↔
      37 ∉ svcname ∧ svcname.length ≤ 127 := by
  obtain ⟨terminated, registered⟩ :=
    zutilInitCreateRegiInfo_svcname undef sysuuid appname text doubled
  have path := binds.path terminated
  have name : (zutilInit undef ivHome sysuuid svcname appname).1.regiBody.svcnameStr =
      (expand svcname).take 127 := registered
  rw [path, name, ← take_expand_eq_iff doubled]
  simp [zsockIpcPath, sameHome, mainIpcPath, zutilInit, zutilInitCreateZconnects]

/-- A client with this svcname, as the first of a broker. -/
private theorem firstClient_binds (svcname : Bytes) (text : 0 ∉ svcname) (doubled : percentDoubled svcname = true)
    (named : (expand svcname).take 127 ≠ []) (other : (expand svcname).take 127 ≠ ascii "ROUTER") :
    BindsFor .bare (zutilInit id (ascii "/home/broker") (ascii "a") svcname []).1
      ⟨4, .push, zsockIpcPath .bare ((expand svcname).take 127)⟩ := by
  obtain ⟨terminated, registered⟩ :=
    zutilInitCreateRegiInfo_svcname id (ascii "a") [] text doubled
  have name : (zutilInit id (ascii "/home/broker") (ascii "a") svcname []).1.regiBody.svcnameStr =
      (expand svcname).take 127 := registered
  rw [← name]
  exact .first .bare terminated rfl (name ▸ named) (name ▸ other)

theorem endpoint_agrees_iff_plain :
    ∃ sock, BindsFor .bare (zutilInit id (ascii "/home/broker") (ascii "a") (ascii "test_1.0") []).1 sock ∧
      sock.ipcPath = (zutilInit id (ascii "/home/broker") (ascii "a") (ascii "test_1.0") []).2.pull := by
  have binds := firstClient_binds (ascii "test_1.0") (by decide) (by decide) (by decide) (by decide)
  have sameHome : Host.bare.ipcPath = mainIpcPath (some (ascii "/home/broker")) [] := rfl
  exact ⟨_, binds, (endpoint_agrees_iff (by decide) (by decide) sameHome binds).mpr (by decide)⟩

/-- A doubled `'%'` is made single on its way to the broker, not on the way to the
client's own socket. -/
theorem endpoint_differs : ¬ ∀ (host : Host) (undef : Bytes → Bytes) (ivHome home sysuuid svcname appname : Bytes)
    (sock : OpenSock), svcname ≠ [] → 0 ∉ svcname → percentDoubled svcname = true →
      host.ipcPath = mainIpcPath (some ivHome) home →
      BindsFor host (zutilInit undef ivHome sysuuid svcname appname).1 sock →
      sock.ipcPath = (zutilInit undef ivHome sysuuid svcname appname).2.pull := by
  intro agree
  have binds := firstClient_binds (ascii "cpu%%%%") (by decide) (by decide) (by decide) (by decide)
  have same := agree .bare id (ascii "/home/broker") [] _ _ _ _ (by decide) (by decide) (by decide) rfl binds
  exact absurd same (by decide)

end MsaBroker
