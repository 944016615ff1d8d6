import EbpfExt.ListEntry
import Mathlib.Logic.Function.Basic
import Mathlib.Order.Interval.Finset.Nat

/-!
# カーネルの資源

provider が使うカーネルの資源を、WDK の関数の名前のまま書く。

* `EX_RUNDOWN_REF` — 参照の数と、rundown が始まったかの印
* `EX_SPIN_LOCK` — 共有で持っている数と、排他で持っているか
* nonpaged pool のブロック — client の record と provider の record
* `IO_WORKITEM` — 割り当て、queue、実行、解放

## 割り当て

pool は使われたことのないアドレスを `1` から順に返す。解放したブロックは中身を残したまま `freed` になり、
二度と割り当てられない。だから client の record はアドレスで識別でき、解放の後に読むと古い中身が見える。
work item も同じ。`poolFrees` と `workItemFrees` は解放の回数を数える ghost で、C のコードにはない。
-/

namespace EbpfExt

/-! ## `EX_RUNDOWN_REF` -/

/-- `EX_RUNDOWN_REF`。`active` は `ExWaitForRundownProtectionRelease` が始まったこと。 -/
structure ExRundownRef where
  count : Nat
  active : Bool
  deriving DecidableEq, Repr

/-- `ExInitializeRundownProtection`。 -/
def exInitializeRundownProtection : ExRundownRef := ⟨0, false⟩

/-- `ExAcquireRundownProtection`：rundown が始まっていなければ参照を一つ増やして `TRUE`。 -/
def exAcquireRundownProtection (r : ExRundownRef) : Bool × ExRundownRef :=
  if r.active then (false, r) else (true, { r with count := r.count + 1 })

/-- `ExReleaseRundownProtection`。 -/
def exReleaseRundownProtection (r : ExRundownRef) : ExRundownRef := { r with count := r.count - 1 }

/-- `ebpf_ext_hook_client_rundown_t`。 -/
structure HookClientRundown where
  protection : ExRundownRef
  rundownOccurred : Bool
  deriving DecidableEq, Repr

/-! ## `EX_SPIN_LOCK` -/

/-- `EX_SPIN_LOCK`。 -/
structure ExSpinLock where
  shared : Nat
  exclusive : Bool
  deriving DecidableEq, Repr

def exAcquireSpinLockShared (l : ExSpinLock) : ExSpinLock := { l with shared := l.shared + 1 }
def exReleaseSpinLockShared (l : ExSpinLock) : ExSpinLock := { l with shared := l.shared - 1 }
def exAcquireSpinLockExclusive (l : ExSpinLock) : ExSpinLock := { l with exclusive := true }
def exReleaseSpinLockExclusive (l : ExSpinLock) : ExSpinLock := { l with exclusive := false }

/-- 誰も持っていない lock。 -/
def ExSpinLock.free : ExSpinLock := ⟨0, false⟩

/-! ## client の record -/

/-- `ebpf_extension_program_dispatch_table_t` のうち provider が読むところ。 -/
structure ProgramDispatchTable where
  ebpfProgramInvokeFunction : Nat
  deriving DecidableEq, Repr

/--
`ebpf_extension_hook_client_t`。`link` は `Memory.links` の同じアドレスにある
（`link` が先頭の field なので `CONTAINING_RECORD` はアドレスを変えない）。
関数ポインタと不透明な context は、それを指す値（`Nat`）で表す。
-/
structure HookClient where
  nmrBindingHandle : Nat
  clientModuleId : Nat
  clientBindingContext : Nat
  clientData : ExtensionData
  invokeProgram : Nat
  providerData : Nat
  providerContext : Nat
  detachWorkItem : Nat
  rundown : HookClientRundown
  deriving DecidableEq, Repr

/-- `memset(hook_client, 0, sizeof(ebpf_extension_hook_client_t))` の後の record。 -/
def HookClient.zero : HookClient :=
  ⟨0, 0, 0, ⟨none⟩, 0, 0, 0, 0, ⟨exInitializeRundownProtection, false⟩⟩

/-- pool のブロックに入っているもの。 -/
inductive Record
  | provider
  | client (c : HookClient)
  deriving DecidableEq, Repr

/-- pool のブロック。`freed` は解放された後の、残っている中身。 -/
inductive Block
  | unallocated
  | live (r : Record)
  | freed (r : Record)
  deriving DecidableEq, Repr

/-- 割り当てられていて、まだ解放されていないブロック。 -/
def Block.isLive : Block → Bool
  | .live _ => true
  | _ => false

/-- 解放されたブロック。 -/
def Block.isFreed : Block → Bool
  | .freed _ => true
  | _ => false

/-- `ExFreePool` がブロックに起こすこと。 -/
def Block.free : Block → Block
  | .live r => .freed r
  | b => b

/-- client の record の field を書き換える。解放後のブロックにも書ける（use-after-free の書き込み）。 -/
def Block.mapClient (f : HookClient → HookClient) : Block → Block
  | .live (.client c) => .live (.client (f c))
  | .freed (.client c) => .freed (.client (f c))
  | b => b

@[simp] theorem Block.isFreed_mapClient {f : HookClient → HookClient} {b : Block} :
    (b.mapClient f).isFreed = b.isFreed := by
  rcases b with _ | ⟨_ | _⟩ | ⟨_ | _⟩ <;> rfl

@[simp] theorem Block.isLive_mapClient {f : HookClient → HookClient} {b : Block} :
    (b.mapClient f).isLive = b.isLive := by
  rcases b with _ | ⟨_ | _⟩ | ⟨_ | _⟩ <;> rfl

/-- `IO_WORKITEM` の状態。 -/
inductive WorkItemState
  | unallocated
  | allocated
  | queued
  | running
  | freed
  deriving DecidableEq, Repr

/-! ## メモリ -/

/-- provider が触るカーネルのメモリ。 -/
structure Memory where
  links : Links
  pool : Nat → Block
  workItems : Nat → WorkItemState
  lock : ExSpinLock
  lastAddr : Nat
  lastWorkItem : Nat
  poolFrees : Nat → Nat
  workItemFrees : Nat → Nat

namespace Memory

/-- 何も割り当てられていないメモリ。 -/
def empty : Memory :=
  ⟨fun _ => ⟨0, 0⟩, fun _ => .unallocated, fun _ => .unallocated, ExSpinLock.free, 0, 0,
    fun _ => 0, fun _ => 0⟩

/-- アドレス `a` の client record の中身。解放後なら残っている中身、client でなければ `zero`。 -/
def clientAt (m : Memory) (a : Nat) : HookClient :=
  match m.pool a with
  | .live (.client c) | .freed (.client c) => c
  | _ => HookClient.zero

/-- `a` を client record として読む。`NULL` や割り当てられていないアドレスは読めない（`none`）。 -/
def readClient (m : Memory) (a : Nat) : Option HookClient :=
  match m.pool a with
  | .live (.client c) | .freed (.client c) => some c
  | _ => none

def updateClient (a : Nat) (f : HookClient → HookClient) (m : Memory) : Memory :=
  { m with pool := Function.update m.pool a ((m.pool a).mapClient f) }

def withLock (f : ExSpinLock → ExSpinLock) (m : Memory) : Memory := { m with lock := f m.lock }

end Memory

/-! ## pool と work item の操作 -/

/-- 新しいアドレス `lastAddr + 1` に `r` を置いたメモリ。 -/
def Memory.allocate (r : Record) (m : Memory) : Memory :=
  { m with lastAddr := m.lastAddr + 1, pool := Function.update m.pool (m.lastAddr + 1) (.live r) }

/-- `ExAllocatePoolUninitialized`。`ok = false` なら失敗して `NULL`。成功すれば新しいアドレスに `r` を置く。 -/
def exAllocatePool (ok : Bool) (r : Record) (m : Memory) : Nat × Memory :=
  if ok then (m.lastAddr + 1, m.allocate r) else (0, m)

/-- `ExFreePool`。 -/
def exFreePool (a : Nat) (m : Memory) : Memory :=
  { m with pool := Function.update m.pool a (m.pool a).free,
           poolFrees := Function.update m.poolFrees a (m.poolFrees a + 1) }

/-- 新しい work item `lastWorkItem + 1` を割り当てたメモリ。 -/
def Memory.allocateWorkItem (m : Memory) : Memory :=
  { m with lastWorkItem := m.lastWorkItem + 1,
           workItems := Function.update m.workItems (m.lastWorkItem + 1) .allocated }

/-- `IoAllocateWorkItem`。`ok = false` なら失敗して `NULL`。 -/
def ioAllocateWorkItem (ok : Bool) (m : Memory) : Nat × Memory :=
  if ok then (m.lastWorkItem + 1, m.allocateWorkItem) else (0, m)

/-- `IoQueueWorkItem`。 -/
def ioQueueWorkItem (w : Nat) (m : Memory) : Memory :=
  { m with workItems := Function.update m.workItems w .queued }

/-- system worker thread が queue から取り出して routine を呼ぶ。 -/
def runWorkItem (w : Nat) (m : Memory) : Memory :=
  { m with workItems := Function.update m.workItems w .running }

/-- `IoFreeWorkItem`。 -/
def ioFreeWorkItem (w : Nat) (m : Memory) : Memory :=
  { m with workItems := Function.update m.workItems w .freed,
           workItemFrees := Function.update m.workItemFrees w (m.workItemFrees w + 1) }

/-! ## 読み出しの補題 -/

namespace Memory

variable {m : Memory} {a b : Nat} {f : HookClient → HookClient}

@[simp] theorem updateClient_links : (m.updateClient a f).links = m.links := rfl
@[simp] theorem updateClient_lastAddr : (m.updateClient a f).lastAddr = m.lastAddr := rfl
@[simp] theorem updateClient_workItems : (m.updateClient a f).workItems = m.workItems := rfl
@[simp] theorem updateClient_lock : (m.updateClient a f).lock = m.lock := rfl
@[simp] theorem updateClient_poolFrees : (m.updateClient a f).poolFrees = m.poolFrees := rfl
@[simp] theorem updateClient_workItemFrees :
    (m.updateClient a f).workItemFrees = m.workItemFrees := rfl

theorem updateClient_pool :
    (m.updateClient a f).pool b = if b = a then (m.pool a).mapClient f else m.pool b := by
  simp [updateClient, Function.update_apply]

@[simp] theorem withLock_links {g} : (m.withLock g).links = m.links := rfl
@[simp] theorem withLock_pool {g} : (m.withLock g).pool = m.pool := rfl
@[simp] theorem withLock_lastAddr {g} : (m.withLock g).lastAddr = m.lastAddr := rfl
@[simp] theorem withLock_lock {g} : (m.withLock g).lock = g m.lock := rfl

theorem clientAt_updateClient :
    (m.updateClient a f).clientAt b = if b = a ∧ (m.readClient a).isSome then f (m.clientAt a)
      else m.clientAt b := by
  simp only [clientAt, readClient, updateClient_pool]
  by_cases h : b = a
  · subst h; cases hp : m.pool b with
    | unallocated => simp [Block.mapClient]
    | live r => cases r <;> simp [Block.mapClient]
    | freed r => cases r <;> simp [Block.mapClient]
  · simp [h]

end Memory

/-! ## 割り当てと解放の補題 -/

section Primitives

variable {m : Memory} {a x : Nat} {r : Record} {w v : Nat}

@[simp] theorem exAllocatePool_false : exAllocatePool false r m = (0, m) := rfl

theorem exAllocatePool_true : exAllocatePool true r m = (m.lastAddr + 1, m.allocate r) := rfl

@[simp] theorem ioAllocateWorkItem_false : ioAllocateWorkItem false m = (0, m) := rfl

theorem ioAllocateWorkItem_true :
    ioAllocateWorkItem true m = (m.lastWorkItem + 1, m.allocateWorkItem) := rfl

@[simp] theorem Memory.allocateWorkItem_links : m.allocateWorkItem.links = m.links := rfl
@[simp] theorem Memory.allocateWorkItem_pool : m.allocateWorkItem.pool = m.pool := rfl
@[simp] theorem Memory.allocateWorkItem_lastAddr : m.allocateWorkItem.lastAddr = m.lastAddr := rfl
@[simp] theorem Memory.allocateWorkItem_lastWorkItem :
    m.allocateWorkItem.lastWorkItem = m.lastWorkItem + 1 := rfl
@[simp] theorem Memory.allocateWorkItem_poolFrees : m.allocateWorkItem.poolFrees = m.poolFrees := rfl
@[simp] theorem Memory.allocateWorkItem_workItemFrees :
    m.allocateWorkItem.workItemFrees = m.workItemFrees := rfl
@[simp] theorem Memory.allocateWorkItem_lock : m.allocateWorkItem.lock = m.lock := rfl
@[simp] theorem Memory.allocateWorkItem_workItems :
    m.allocateWorkItem.workItems v = if v = m.lastWorkItem + 1 then .allocated else m.workItems v := by
  simp [Memory.allocateWorkItem, Function.update_apply]

@[simp] theorem runWorkItem_links : (runWorkItem w m).links = m.links := rfl
@[simp] theorem runWorkItem_pool : (runWorkItem w m).pool = m.pool := rfl
@[simp] theorem runWorkItem_lastAddr : (runWorkItem w m).lastAddr = m.lastAddr := rfl
@[simp] theorem runWorkItem_lastWorkItem : (runWorkItem w m).lastWorkItem = m.lastWorkItem := rfl
@[simp] theorem runWorkItem_poolFrees : (runWorkItem w m).poolFrees = m.poolFrees := rfl
@[simp] theorem runWorkItem_workItemFrees : (runWorkItem w m).workItemFrees = m.workItemFrees := rfl
@[simp] theorem runWorkItem_lock : (runWorkItem w m).lock = m.lock := rfl
@[simp] theorem runWorkItem_workItems :
    (runWorkItem w m).workItems v = if v = w then .running else m.workItems v := by
  simp [runWorkItem, Function.update_apply]
@[simp] theorem Memory.clientAt_runWorkItem : (runWorkItem w m).clientAt x = m.clientAt x := rfl

@[simp] theorem Memory.updateClient_allocateWorkItem {f : HookClient → HookClient} :
    m.allocateWorkItem.updateClient a f = (m.updateClient a f).allocateWorkItem := rfl

@[simp] theorem exFreePool_links : (exFreePool a m).links = m.links := rfl
@[simp] theorem exFreePool_lastAddr : (exFreePool a m).lastAddr = m.lastAddr := rfl
@[simp] theorem exFreePool_lastWorkItem : (exFreePool a m).lastWorkItem = m.lastWorkItem := rfl
@[simp] theorem exFreePool_workItems : (exFreePool a m).workItems = m.workItems := rfl
@[simp] theorem exFreePool_workItemFrees : (exFreePool a m).workItemFrees = m.workItemFrees := rfl
@[simp] theorem exFreePool_lock : (exFreePool a m).lock = m.lock := rfl
@[simp] theorem exFreePool_pool :
    (exFreePool a m).pool x = if x = a then (m.pool a).free else m.pool x := by
  simp [exFreePool, Function.update_apply]
@[simp] theorem exFreePool_poolFrees :
    (exFreePool a m).poolFrees x = if x = a then m.poolFrees a + 1 else m.poolFrees x := by
  simp [exFreePool, Function.update_apply]

@[simp] theorem ioFreeWorkItem_links : (ioFreeWorkItem w m).links = m.links := rfl
@[simp] theorem ioFreeWorkItem_pool : (ioFreeWorkItem w m).pool = m.pool := rfl
@[simp] theorem ioFreeWorkItem_lastAddr : (ioFreeWorkItem w m).lastAddr = m.lastAddr := rfl
@[simp] theorem ioFreeWorkItem_lastWorkItem : (ioFreeWorkItem w m).lastWorkItem = m.lastWorkItem := rfl
@[simp] theorem ioFreeWorkItem_poolFrees : (ioFreeWorkItem w m).poolFrees = m.poolFrees := rfl
@[simp] theorem ioFreeWorkItem_lock : (ioFreeWorkItem w m).lock = m.lock := rfl
@[simp] theorem ioFreeWorkItem_workItems :
    (ioFreeWorkItem w m).workItems v = if v = w then .freed else m.workItems v := by
  simp [ioFreeWorkItem, Function.update_apply]
@[simp] theorem ioFreeWorkItem_workItemFrees :
    (ioFreeWorkItem w m).workItemFrees v = if v = w then m.workItemFrees w + 1 else m.workItemFrees v := by
  simp [ioFreeWorkItem, Function.update_apply]

@[simp] theorem ioQueueWorkItem_links : (ioQueueWorkItem w m).links = m.links := rfl
@[simp] theorem ioQueueWorkItem_pool : (ioQueueWorkItem w m).pool = m.pool := rfl
@[simp] theorem ioQueueWorkItem_lastAddr : (ioQueueWorkItem w m).lastAddr = m.lastAddr := rfl
@[simp] theorem ioQueueWorkItem_lastWorkItem : (ioQueueWorkItem w m).lastWorkItem = m.lastWorkItem := rfl
@[simp] theorem ioQueueWorkItem_poolFrees : (ioQueueWorkItem w m).poolFrees = m.poolFrees := rfl
@[simp] theorem ioQueueWorkItem_workItemFrees :
    (ioQueueWorkItem w m).workItemFrees = m.workItemFrees := rfl
@[simp] theorem ioQueueWorkItem_lock : (ioQueueWorkItem w m).lock = m.lock := rfl
@[simp] theorem ioQueueWorkItem_workItems :
    (ioQueueWorkItem w m).workItems v = if v = w then .queued else m.workItems v := by
  simp [ioQueueWorkItem, Function.update_apply]

theorem Memory.clientAt_of_live {r : HookClient} (h : m.pool a = .live (.client r)) : m.clientAt a = r := by
  simp only [Memory.clientAt, h]

theorem Memory.updateClient_pool_live {f : HookClient → HookClient} {r : HookClient}
    (h : m.pool a = .live (.client r)) : (m.updateClient a f).pool a = .live (.client (f r)) := by
  simp only [Memory.updateClient_pool, if_true, h, Block.mapClient]

@[simp] theorem Memory.clientAt_free : (exFreePool a m).clientAt x = m.clientAt x := by
  unfold Memory.clientAt; by_cases h : x = a
  · subst h; simp only [exFreePool_pool, if_true]
    rcases m.pool x with _ | ⟨_ | _⟩ | ⟨_ | _⟩ <;> rfl
  · simp [h]

@[simp] theorem Memory.clientAt_ioFreeWorkItem : (ioFreeWorkItem w m).clientAt x = m.clientAt x := rfl
@[simp] theorem Memory.clientAt_ioQueueWorkItem : (ioQueueWorkItem w m).clientAt x = m.clientAt x := rfl

end Primitives

/-! ## provider のリスト -/

/--
provider の `attached_clients_list`（head は `hd`）の中身が `l`。
head と entry は割り当て済みのアドレス（`1` 以上 `lastAddr` 以下）にある。
-/
def ClientList (m : Memory) (hd : Nat) (l : List Nat) : Prop :=
  ListRep m.links hd l ∧ ∀ x ∈ hd :: l, 0 < x ∧ x ≤ m.lastAddr

instance (m : Memory) (hd : Nat) (l : List Nat) : Decidable (ClientList m hd l) :=
  inferInstanceAs (Decidable (_ ∧ _))

/-- 割り当て済みのアドレスの `LIST_ENTRY` が変わらず、`lastAddr` が減らなければ、リストはそのまま。 -/
theorem ClientList.frame {m m' : Memory} {hd : Nat} {l : List Nat} (h : ClientList m hd l)
    (hlinks : ∀ x ≤ m.lastAddr, m'.links x = m.links x) (hlast : m.lastAddr ≤ m'.lastAddr) :
    ClientList m' hd l := by
  have heq : ∀ x ∈ hd :: l, m'.links x = m.links x := fun x hx => hlinks x (h.2 x hx).2
  refine ⟨⟨h.1.1, h.1.2.frame (fun a ha => by rw [heq a ha]) (fun a ha => ?_)⟩,
    fun x hx => ⟨(h.2 x hx).1, le_trans (h.2 x hx).2 hlast⟩⟩
  rw [heq a (by simp at ha ⊢; tauto)]

/-- リストの entry は重複のない割り当て済みのアドレスなので、`lastAddr` より少ない。 -/
theorem ClientList.length_lt {m : Memory} {hd : Nat} {l : List Nat} (h : ClientList m hd l) :
    l.length < m.lastAddr := by
  have hsub : (hd :: l).toFinset ⊆ Finset.Icc 1 m.lastAddr := by
    intro x hx
    have := h.2 x (List.mem_toFinset.mp hx)
    simpa using ⟨this.1, this.2⟩
  have := Finset.card_le_card hsub
  rw [List.toFinset_card_of_nodup h.1.1] at this
  simp at this
  omega

end EbpfExt
