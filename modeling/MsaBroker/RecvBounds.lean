import MsaBroker.Zutil

/-! What `zutil_recv` does to the caller's memory. The terminator goes to
`buff[rcv_bytes]`, and `rcv_bytes` is the length of the body that was sent, not
of what was stored: it is inside the buffer exactly when the whole body and a
terminator fit. -/
namespace MsaBroker
open CMemory

/-- The socket the loop of `zutil_recv` serves. -/
def ZutilCtx.ready (z : ZutilCtx) : Option InSock :=
  if z.sub.pollin then some z.sub
  else if z.dealer.pollin then some z.dealer
  else if z.pull.pollin then some z.pull
  else none

/-- The frame received after a first frame that was not empty. -/
def InSock.bodyFrame (s : InSock) : Option Bytes :=
  match s.recv with
  | none => none
  | some (head, s) => if head = [] then none else s.more.head?

/-- The body `zutil_recv` receives. -/
def ZutilCtx.body (z : ZutilCtx) : Option Bytes := z.ready.bind InSock.bodyFrame

/-- Of the memory at `buff`, only the first `size` bytes changed, and a body
reported received is there with its terminator. -/
structure RecvSafe (z : ZutilCtx) (head : Envelop) (buff : Bytes) (size : Nat) : Prop where
  within : (zutilRecv head buff size z).2.2.1.drop size = buff.drop size
  content : 0 ≤ (zutilRecv head buff size z).1.toInt → ∃ body, z.body = some body ∧
    (zutilRecv head buff size z).2.2.1.take ((zutilRecv head buff size z).1.toInt.toNat + 1) =
      body.take (zutilRecv head buff size z).1.toInt.toNat ++ [0]

/-! ## The memory afterwards -/

variable {s : InSock} {head : Envelop} {buff body : Bytes} {size n : Nat} {z : ZutilCtx}

/-- The stored part of the body, and the memory behind it as it was. -/
def stored (body buff : Bytes) (size : Nat) : Bytes := body.take size ++ buff.drop (min body.length size)

theorem recvLength_pos (frame : Bytes) : 0 < (recvLength frame).toInt ↔ frame ≠ [] := by
  rw [recvLength_toInt, ← List.length_pos_iff]
  omega

theorem zutilRecvFrom_body (head : Envelop) (buff : Bytes) (size : Nat) (found : s.bodyFrame = some body) :
    (zutilRecvFrom s head buff size).1 = recvLength body ∧
      (zutilRecvFrom s head buff size).2.2.1 = (stored body buff size).set (recvLength body).toInt.toNat 0 := by
  unfold InSock.bodyFrame at found
  split at found
  · cases found
  · rename_i first after received
    split at found
    · cases found
    · rename_i nonempty
      obtain ⟨rest, more⟩ := List.head?_eq_some_iff.mp found
      have positive := (recvLength_pos first).mpr nonempty
      have second : after.recv = some (body, ⟨rest, after.queue⟩) := by simp [InSock.recv, more]
      have reported := recvLength_nonneg body
      simp [zutilRecvFrom, zmqRecv, zmqRecvMem, received, positive, InSock.rcvmore, more, second, reported, stored]

theorem zutilRecvFrom_nothing (head : Envelop) (buff : Bytes) (size : Nat) (nothing : s.bodyFrame = none) :
    (zutilRecvFrom s head buff size).1 = -1 ∧ (zutilRecvFrom s head buff size).2.2.1 = buff := by
  unfold InSock.bodyFrame at nothing
  split at nothing
  · rename_i empty
    simp [zutilRecvFrom, zmqRecv, empty]
  · rename_i first after received
    split at nothing
    · rename_i empty
      have zero : (recvLength first).toInt = 0 := by rw [empty]; rfl
      simp [zutilRecvFrom, zmqRecv, received, zero]
    · have last : after.more = [] := List.head?_eq_none_iff.mp nothing
      simp [zutilRecvFrom, zmqRecv, received, InSock.rcvmore, last]

/-- `zutil_recv` is the two receives from the ready socket. -/
theorem zutilRecv_ready (head : Envelop) (buff : Bytes) (size : Nat) (z : ZutilCtx) :
    match z.ready with
    | none => (zutilRecv head buff size z).1 = -1 ∧ (zutilRecv head buff size z).2.2.1 = buff
    | some s => (zutilRecv head buff size z).1 = (zutilRecvFrom s head buff size).1 ∧
        (zutilRecv head buff size z).2.2.1 = (zutilRecvFrom s head buff size).2.2.1 := by
  by_cases sub : z.sub.pollin
  · simp [ZutilCtx.ready, zutilRecv, sub]
  · by_cases dealer : z.dealer.pollin
    · simp [ZutilCtx.ready, zutilRecv, sub, dealer]
    · by_cases pull : z.pull.pollin <;> simp [ZutilCtx.ready, zutilRecv, sub, dealer, pull]

/-- With a body, what is reported and what the memory holds. -/
theorem zutilRecv_body (head : Envelop) (buff : Bytes) (size : Nat) (found : z.body = some body) :
    (zutilRecv head buff size z).1 = recvLength body ∧
      (zutilRecv head buff size z).2.2.1 = (stored body buff size).set (recvLength body).toInt.toNat 0 := by
  obtain ⟨s, ready, frame⟩ := Option.bind_eq_some_iff.mp found
  have served := zutilRecv_ready head buff size z
  rw [ready] at served
  obtain ⟨rc, mem⟩ := zutilRecvFrom_body head buff size frame
  exact ⟨served.1.trans rc, served.2.trans mem⟩

/-- Without one, `-1`, and the memory untouched. -/
theorem zutilRecv_nothing (head : Envelop) (buff : Bytes) (size : Nat) (nothing : z.body = none) :
    (zutilRecv head buff size z).1 = -1 ∧ (zutilRecv head buff size z).2.2.1 = buff := by
  have served := zutilRecv_ready head buff size z
  cases ready : z.ready with
  | none =>
    rw [ready] at served
    exact served
  | some s =>
    have frame : s.bodyFrame = none := by simpa [ZutilCtx.body, ready] using nothing
    rw [ready] at served
    obtain ⟨rc, mem⟩ := zutilRecvFrom_nothing head buff size frame
    exact ⟨served.1.trans rc, served.2.trans mem⟩

/-! ## Inside the buffer and outside -/

theorem stored_length (room : size ≤ buff.length) : (stored body buff size).length = buff.length := by
  simp only [stored, List.length_append, List.length_take, List.length_drop]
  omega

/-- The receive itself stays inside. -/
theorem stored_drop : (stored body buff size).drop size = buff.drop size := by
  have inside : (body.take size).drop size = [] := List.drop_of_length_le (List.length_take_le _ _)
  rw [stored, List.drop_append, inside, List.nil_append, List.drop_drop, List.length_take]
  congr 1
  omega

theorem stored_take (within : n ≤ size) (sent : n ≤ body.length) : (stored body buff size).take n = body.take n := by
  have long : n ≤ (body.take size).length := by
    rw [List.length_take]
    omega
  rw [stored, List.take_append_of_le_length long, List.take_take, Nat.min_eq_left within]

/-- A terminator inside the buffer ends exactly what was received. -/
theorem recvSafe_of_fits (found : z.body = some body) (fits : (recvLength body).toInt.toNat < size)
    (room : size ≤ buff.length) : RecvSafe z head buff size := by
  obtain ⟨rc, mem⟩ := zutilRecv_body head buff size found
  have sent : (recvLength body).toInt.toNat ≤ body.length := by
    rw [recvLength_toInt]
    omega
  refine ⟨?_, fun _ => ⟨body, found, ?_⟩⟩
  · rw [mem, List.drop_set_of_lt fits, stored_drop]
  · have inside : (recvLength body).toInt.toNat < (stored body buff size).length := by
      rw [stored_length room]
      omega
    rw [mem, rc, List.take_add_one, List.getElem?_set_self inside, List.take_set_of_le (Nat.le_refl _),
      stored_take (Nat.le_of_lt fits) sent]
    rfl

/-- A terminator outside falls on memory that is not the caller's buffer. -/
theorem not_recvSafe_of_overflows (found : z.body = some body) (overflows : size ≤ (recvLength body).toInt.toNat) :
    ¬ RecvSafe z head (List.replicate ((recvLength body).toInt.toNat + 1) 1) size := by
  intro safe
  have within := safe.within
  rw [(zutilRecv_body _ _ _ found).2] at within
  have byte := congrArg (fun l => l[(recvLength body).toInt.toNat - size]?) within
  simp only [List.getElem?_drop, Nat.add_sub_cancel' overflows] at byte
  have room : size ≤ (List.replicate ((recvLength body).toInt.toNat + 1) (1 : UInt8)).length := by
    rw [List.length_replicate]
    omega
  rw [List.getElem?_set_self (by rw [stored_length room, List.length_replicate]; omega)] at byte
  simp at byte

/-- **The caller's buffer is safe exactly when the body and its terminator fit.**
The memory may hold anything and go on as far as it likes. -/
theorem zutilRecv_safe_iff (z : ZutilCtx) (head : Envelop) (size : Nat) :
    (∀ buff : Bytes, size ≤ buff.length → RecvSafe z head buff size) ↔
      ∀ body, z.body = some body → min body.length 2147483647 < size := by
  have reported (body : Bytes) : (recvLength body).toInt.toNat = min body.length 2147483647 := by
    rw [recvLength_toInt]
    omega
  constructor
  · intro safe body found
    rw [← reported]
    by_contra overflows
    refine not_recvSafe_of_overflows found (Nat.le_of_not_lt overflows) (safe _ ?_)
    rw [List.length_replicate]
    omega
  · intro fits buff room
    cases found : z.body with
    | none =>
      obtain ⟨rc, mem⟩ := zutilRecv_nothing head buff size found
      refine ⟨congrArg _ mem, fun reported => ?_⟩
      rw [rc] at reported
      exact absurd reported (by decide)
    | some body =>
      have short := fits body found
      rw [← reported] at short
      exact recvSafe_of_fits found short room

/-- A client with one message on its PULL socket. -/
def pulling (body : Bytes) : ZutilCtx :=
  { ivHome := [], regiHead := .zero, regiBody := .zero, sub := ⟨[], []⟩, dealer := ⟨[], []⟩
    pull := ⟨[], [⟨Envelop.zero.bytes, [body]⟩]⟩ }

theorem pulling_body (body : Bytes) : (pulling body).body = some body := by
  have header : Envelop.zero.bytes ≠ [] := by
    intro empty
    have length := Envelop.zero.bytes_length
    rw [empty] at length
    cases length
  simp [ZutilCtx.body, ZutilCtx.ready, pulling, InSock.pollin, InSock.bodyFrame, InSock.recv, header]

/-- The sample client's buffer of 1024 bytes and a body of as many: the byte
behind the buffer becomes zero. -/
theorem terminator_outside :
    (zutilRecv .zero (List.replicate 1025 1) 1024 (pulling (List.replicate 1024 97))).1 = 1024 ∧
      (zutilRecv .zero (List.replicate 1025 1) 1024 (pulling (List.replicate 1024 97))).2.2.1.drop 1024 = [0] ∧
      ¬ RecvSafe (pulling (List.replicate 1024 97)) .zero (List.replicate 1025 1) 1024 := by
  have found : (pulling (List.replicate 1024 97)).body = some (List.replicate 1024 97) := pulling_body _
  have reported : recvLength (List.replicate 1024 97) = 1024 := by
    rw [recvLength, List.length_replicate]
    rfl
  obtain ⟨rc, mem⟩ := zutilRecv_body .zero (List.replicate 1025 1) 1024 found
  have behind : (zutilRecv .zero (List.replicate 1025 1) 1024 (pulling (List.replicate 1024 97))).2.2.1.drop 1024 =
      [0] := by
    rw [mem, reported, List.drop_set, stored_drop, List.drop_replicate]
    rfl
  refine ⟨rc.trans reported, behind, fun safe => ?_⟩
  have same := behind.symm.trans safe.within
  rw [List.drop_replicate] at same
  cases same

end MsaBroker
