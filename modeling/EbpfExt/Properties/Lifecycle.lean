import EbpfExt.Properties.Attach

/-!
# register、detach、完了、後片付け

attach のほかの provider の操作が、メモリの何を変えるか。

* `ebpfExtensionHookProviderRegister_eq` — register が成功すれば、新しい provider のリストは空の head
* `ebpfExtensionHookProviderDetachClient_clientList` — detach はその client だけをリストから外す。
  外した entry の `Flink` と `Blink` は元のまま残る
* `ClientsKept` — 前からある record は client のままで、attach parameter も変わらない。
  attach、detach、完了の work item、binding context の後片付けはどれもこれを保つ
-/

namespace EbpfExt

/-! ## register -/

/-- register が成功すれば、provider の record は新しいアドレスにあり、その `attached_clients_list` は空の head。 -/
theorem ebpfExtensionHookProviderRegister_eq {allocOk : Bool} {nmrStatus st : NtStatus}
    {m₀ m : Memory} {hd : Nat} (h : ebpfExtensionHookProviderRegister allocOk nmrStatus m₀ = (st, hd, m))
    (hs : ntSuccess st = true) :
    hd = m₀.lastAddr + 1 ∧
      m = { m₀.allocate .provider with links := initializeListHead m₀.links (m₀.lastAddr + 1) } := by
  cases allocOk
  · simp only [ebpfExtensionHookProviderRegister, exAllocatePool_false, if_true, Prod.mk.injEq] at h
    obtain ⟨rfl, -, -⟩ := h
    simp at hs
  · by_cases hn : ntSuccess nmrStatus = true
    · simp only [ebpfExtensionHookProviderRegister, exAllocatePool_true, Nat.add_one_ne_zero, if_false, hn,
        if_true, Prod.mk.injEq] at h
      obtain ⟨-, rfl, rfl⟩ := h
      exact ⟨rfl, rfl⟩
    · simp only [ebpfExtensionHookProviderRegister, exAllocatePool_true, Nat.add_one_ne_zero, if_false, hn,
        Prod.mk.injEq] at h
      obtain ⟨rfl, -, -⟩ := h
      exact absurd hs hn

/-- register が成功すれば、新しい provider のリストは空。 -/
theorem ebpfExtensionHookProviderRegister_clientList {allocOk : Bool} {nmrStatus st : NtStatus}
    {m₀ m : Memory} {hd : Nat} (h : ebpfExtensionHookProviderRegister allocOk nmrStatus m₀ = (st, hd, m))
    (hs : ntSuccess st = true) : hd = m₀.lastAddr + 1 ∧ ClientList m hd [] := by
  obtain ⟨rfl, rfl⟩ := ebpfExtensionHookProviderRegister_eq h hs
  exact ⟨rfl, listRep_initializeListHead, by simp [Memory.allocate]⟩

/-! ## detach -/

section Detach

variable {m : Memory} {hd c : Nat} {L : List Nat} {lc : HookClient}

/-- client の record を読めれば、detach は排他 lock の中の `RemoveEntryList` と `IoQueueWorkItem`。 -/
theorem ebpfExtensionHookProviderDetachClient_eq (hr : m.readClient c = some lc) (hc : c ≠ 0) :
    ebpfExtensionHookProviderDetachClient c m =
      (removeEntryList m.links c).map fun p => (statusPending, ioQueueWorkItem lc.detachWorkItem
        { m with links := p.2, lock := exReleaseSpinLockExclusive (exAcquireSpinLockExclusive m.lock) }) := by
  simp only [ebpfExtensionHookProviderDetachClient, hr, hc, if_false, Memory.withLock_links]
  cases removeEntryList m.links c <;> rfl

/--
リストにある client の detach は `STATUS_PENDING` を返し、その client だけを外す（残りの順は変わらない）。
書き換える `LIST_ENTRY` は前後の entry のものだけで、外した entry の `Flink` は前の次の client を指したまま。
-/
theorem ebpfExtensionHookProviderDetachClient_clientList (hl : ClientList m hd L) (hc : c ∈ L)
    (hr : m.readClient c = some lc) :
    ∃ links, ebpfExtensionHookProviderDetachClient c m = some (statusPending, ioQueueWorkItem lc.detachWorkItem
        { m with links, lock := exReleaseSpinLockExclusive (exAcquireSpinLockExclusive m.lock) }) ∧
      ClientList { m with links } hd (L.erase c) ∧ links c = m.links c ∧
      ∀ x, x ≠ (m.links c).blink → x ≠ (m.links c).flink → links x = m.links x := by
  obtain ⟨b, links, hrem, hrep, hc'⟩ := removeEntryList_listRep hl.1 hc
  have hc0 : c ≠ 0 := (hl.2 c (List.mem_cons_of_mem hd hc)).1.ne'
  refine ⟨links, by rw [ebpfExtensionHookProviderDetachClient_eq hr hc0, hrem]; rfl, ⟨hrep, fun x hx => ?_⟩, hc',
    fun _ hp hn => removeEntryList_of_ne hrem hp hn⟩
  exact hl.2 x (List.mem_cons.mpr ((List.mem_cons.mp hx).imp_right (List.mem_of_mem_erase)))

end Detach

/-! ## 前からある client の record -/

/-- 前からある record（`m.lastAddr` まで）は、client ならそのまま client で、attach parameter も変わらない。 -/
structure ClientsKept (m m' : Memory) : Prop where
  lastAddr_le : m.lastAddr ≤ m'.lastAddr
  clientData : ∀ x ≤ m.lastAddr, (m'.clientAt x).clientData = (m.clientAt x).clientData
  isClient : ∀ x ≤ m.lastAddr, (m.readClient x).isSome → (m'.readClient x).isSome

namespace ClientsKept

variable {m m' m'' : Memory}

theorem refl (m : Memory) : ClientsKept m m := ⟨le_rfl, fun _ _ => rfl, fun _ _ h => h⟩

theorem trans (h : ClientsKept m m') (h' : ClientsKept m' m'') : ClientsKept m m'' where
  lastAddr_le := h.lastAddr_le.trans h'.lastAddr_le
  clientData x hx := (h'.clientData x (hx.trans h.lastAddr_le)).trans (h.clientData x hx)
  isClient x hx hc := h'.isClient x (hx.trans h.lastAddr_le) (h.isClient x hx hc)

/-- 前からあるブロックがどれも同じなら `ClientsKept`。 -/
theorem of_pool (hp : ∀ x ≤ m.lastAddr, m'.pool x = m.pool x) (hl : m.lastAddr ≤ m'.lastAddr) :
    ClientsKept m m' where
  lastAddr_le := hl
  clientData x hx := by simp only [Memory.clientAt, hp x hx]
  isClient x hx := by simp only [Memory.readClient, hp x hx]; exact id

/-- 前からある client の attach parameter は変わらない。 -/
theorem attachParameters_eq (h : ClientsKept m m') {W : Bytes} {L : List Nat} (hL : ∀ x ∈ L, x ≤ m.lastAddr) :
    attachParameters W m' L = attachParameters W m L :=
  List.map_congr_left fun x hx => by simp only [effectiveAttachParameter, h.clientData x (hL x hx)]

end ClientsKept

section Kept

variable {m : Memory} {a : Nat}

theorem Memory.readClient_isSome_updateClient {f : HookClient → HookClient} {x : Nat} :
    ((m.updateClient a f).readClient x).isSome = (m.readClient x).isSome := by
  simp only [Memory.readClient, Memory.updateClient_pool]
  split_ifs with h
  · subst h; rcases m.pool x with _ | ⟨_ | _⟩ | ⟨_ | _⟩ <;> rfl
  · rfl

/-- `clientData` を変えない書き込み。 -/
theorem clientsKept_updateClient {f : HookClient → HookClient} (hf : ∀ c, (f c).clientData = c.clientData) :
    ClientsKept m (m.updateClient a f) where
  lastAddr_le := le_rfl
  clientData x _ := by
    rw [Memory.clientAt_updateClient]
    split_ifs with h
    · rw [hf, h.1]
    · rfl
  isClient x _ := by rw [Memory.readClient_isSome_updateClient]; exact id

theorem clientsKept_exFreePool : ClientsKept m (exFreePool a m) where
  lastAddr_le := le_rfl
  clientData x _ := by rw [Memory.clientAt_free]
  isClient x _ := by
    simp only [Memory.readClient, exFreePool_pool]
    split_ifs with h
    · subst h; rcases m.pool x with _ | ⟨_ | _⟩ | ⟨_ | _⟩ <;> simp [Block.free]
    · exact id

theorem clientsKept_ioFreeWorkItem {w : Nat} : ClientsKept m (ioFreeWorkItem w m) :=
  ClientsKept.of_pool (fun _ _ => rfl) le_rfl

/-- `_ebpf_extension_detach_client_completion` は rundown と work item にしか触れない。 -/
theorem ebpfExtensionDetachClientCompletion_kept {m' : Memory} (h : ebpfExtensionDetachClientCompletion a m = some m') :
    ClientsKept m m' ∧ m'.links = m.links ∧ m'.lastAddr = m.lastAddr := by
  simp only [ebpfExtensionDetachClientCompletion, ebpfExtAttachWaitForRundown, waitForRundownEnd] at h
  split at h
  · cases h
    have hb : ClientsKept m (waitForRundownBegin a m) := clientsKept_updateClient fun _ => rfl
    refine ⟨(hb.trans ?_).trans clientsKept_ioFreeWorkItem, rfl, rfl⟩
    exact clientsKept_updateClient fun _ => rfl
  · cases h

/-- `_ebpf_extension_hook_provider_cleanup_binding_context` は record を解放するだけ。 -/
theorem ebpfExtensionHookProviderCleanupBindingContext_kept :
    ClientsKept m (ebpfExtensionHookProviderCleanupBindingContext a m) := by
  unfold ebpfExtensionHookProviderCleanupBindingContext
  split_ifs
  · exact clientsKept_exFreePool
  · exact ClientsKept.refl m

/-- 失敗した attach は、前からあるものを変えない。 -/
theorem Unwound.clientsKept {m' : Memory} (h : Unwound m m') : ClientsKept m m' :=
  ClientsKept.of_pool h.pool h.lastAddr_le

end Kept

end EbpfExt
