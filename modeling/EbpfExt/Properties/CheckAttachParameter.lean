import EbpfExt.HookProvider

/-!
# attach parameter の確認

`ebpf_extension_hook_check_attach_parameter` が、リストの長さとどの位置に衝突する client があるかに
よらず、次の規則を計算することを示す。

* 要求した parameter `P` が wildcard `W` と（先頭 `n` バイトで）等しければ、リストが空のときだけ成功
* そうでなければ、リストのどの client の parameter も `W` とも `P` とも等しくないときだけ成功

どちらの場合もメモリ（リストと lock）は呼ぶ前のまま。

* `checkAttachParameterLoop_eq` — ループは `Flink` をたどった列の上の `any` と同じ
* `ebpfExtensionHookCheckAttachParameter_success_iff` — 上の規則
* `ebpfExtensionHookCheckAttachParameter_spec` — 規則と、メモリが変わらないことと、返す値が二つだけであること
-/

namespace EbpfExt

variable {m : Memory} {hd : Nat} {l : List Nat}

/-- client `c` が、要求 `P` とぶつかる（wildcard を持つか、`P` と同じ parameter を持つ）。 -/
def conflicts (n : Nat) (P W : Bytes) (m : Memory) (c : Nat) : Bool :=
  memcmp W (effectiveAttachParameter W (m.clientAt c)) n = 0 ∨
    memcmp P (effectiveAttachParameter W (m.clientAt c)) n = 0

@[simp] theorem Memory.withLock_clientAt {g : ExSpinLock → ExSpinLock} {a : Nat} :
    (m.withLock g).clientAt a = m.clientAt a := rfl

@[simp] theorem Memory.withLock_shared_release_acquire :
    (m.withLock exAcquireSpinLockShared).withLock exReleaseSpinLockShared = m := by
  simp only [Memory.withLock, exAcquireSpinLockShared, exReleaseSpinLockShared, Nat.add_sub_cancel]

@[simp] theorem conflicts_withLock {g : ExSpinLock → ExSpinLock} {n : Nat} {P W : Bytes} :
    conflicts n P W (m.withLock g) = conflicts n P W m := rfl

/-- ループは、`Flink` をたどった列の上で、ぶつかる client を探すことと同じ。 -/
theorem checkAttachParameterLoop_eq (n : Nat) (P W : Bytes) (fuel : Nat) (link : Nat) :
    checkAttachParameterLoop n P W m hd fuel link =
      if (walk m.links hd fuel link).any (conflicts n P W m) then .accessDenied else .success := by
  induction fuel generalizing link with
  | zero => simp [checkAttachParameterLoop, walk]
  | succ fuel ih =>
    by_cases hl : link = hd
    · simp [checkAttachParameterLoop, walk, hl]
    · by_cases hc : conflicts n P W m link = true
      · simp only [conflicts, decide_eq_true_eq] at hc
        simp [checkAttachParameterLoop, walk, hl, hc, conflicts]
      · simp only [conflicts, decide_eq_true_eq, not_or] at hc
        simp [checkAttachParameterLoop, walk, hl, hc, ih, conflicts]

theorem conflicts_iff {n : Nat} {P W : Bytes} {c : Nat} :
    conflicts n P W m c = true ↔
      (effectiveAttachParameter W (m.clientAt c)).take n = W.take n ∨
        (effectiveAttachParameter W (m.clientAt c)).take n = P.take n := by
  simp only [conflicts, Bool.decide_or, Bool.or_eq_true, decide_eq_true_eq, memcmp_eq_zero_iff]
  exact or_congr eq_comm eq_comm

/--
attach の規則。要求 `P` が wildcard `W` と等しければリストが空のとき、そうでなければリストの
どの parameter も `W` とも `P` とも違うときに認める。比べるのは先頭 `n` バイト。
-/
def AttachParameterAdmits (n : Nat) (P W : Bytes) (params : List Bytes) : Prop :=
  (P.take n = W.take n ∧ params = []) ∨
    (P.take n ≠ W.take n ∧ ∀ q ∈ params, q.take n ≠ W.take n ∧ q.take n ≠ P.take n)

instance {n : Nat} {P W : Bytes} {params : List Bytes} : Decidable (AttachParameterAdmits n P W params) :=
  inferInstanceAs (Decidable (_ ∨ _))

/-- リスト `l` の client の attach parameter。 -/
def attachParameters (W : Bytes) (m : Memory) (l : List Nat) : List Bytes :=
  l.map fun c => effectiveAttachParameter W (m.clientAt c)

/-- 確認はリストも lock も変えない。 -/
theorem ebpfExtensionHookCheckAttachParameter_mem (n : Nat) (P W : Bytes) :
    (ebpfExtensionHookCheckAttachParameter n P W hd m).2 = m := by
  simp [ebpfExtensionHookCheckAttachParameter]

theorem ebpfExtensionHookCheckAttachParameter_result (n : Nat) (P W : Bytes) :
    (ebpfExtensionHookCheckAttachParameter n P W hd m).1 = .success ∨
      (ebpfExtensionHookCheckAttachParameter n P W hd m).1 = .accessDenied := by
  simp only [ebpfExtensionHookCheckAttachParameter, checkAttachParameterLoop_eq]
  split_ifs <;> simp

/-- 確認が通るのは、`AttachParameterAdmits` のときに限る。 -/
theorem ebpfExtensionHookCheckAttachParameter_success_iff (hl : ClientList m hd l) (n : Nat) (P W : Bytes) :
    (ebpfExtensionHookCheckAttachParameter n P W hd m).1 = .success ↔
      AttachParameterAdmits n P W (attachParameters W m l) := by
  have hwalk : walk m.links hd m.lastAddr (m.links hd).flink = l :=
    walk_eq_of_listRep hl.1 hl.length_lt
  have hempty := isListEmpty_iff hl.1
  by_cases hP : P.take n = W.take n
  · have : memcmp P W n = 0 := memcmp_eq_zero_iff.mpr hP
    cases l with
    | nil => simp_all [ebpfExtensionHookCheckAttachParameter, AttachParameterAdmits, attachParameters]
    | cons c l => simp_all [ebpfExtensionHookCheckAttachParameter, AttachParameterAdmits, attachParameters]
  · have : memcmp P W n ≠ 0 := fun h => hP (memcmp_eq_zero_iff.mp h)
    simp only [ebpfExtensionHookCheckAttachParameter, this, decide_False, Bool.false_eq_true,
      if_false, Memory.withLock_links, Memory.withLock_lastAddr, checkAttachParameterLoop_eq,
      hwalk, conflicts_withLock]
    simp [List.any_eq_true, conflicts_iff, hP, AttachParameterAdmits, attachParameters]

/--
`ebpf_extension_hook_check_attach_parameter` は、どんな長さのリストでも、衝突する client がどこにあっても、
`AttachParameterAdmits` のときだけ `EBPF_SUCCESS` を、それ以外は `EBPF_ACCESS_DENIED` を返す。
メモリ（リストと lock）は変わらない。
-/
theorem ebpfExtensionHookCheckAttachParameter_spec (hl : ClientList m hd l) (n : Nat) (P W : Bytes) :
    (ebpfExtensionHookCheckAttachParameter n P W hd m).2 = m ∧
    ((ebpfExtensionHookCheckAttachParameter n P W hd m).1 = .success ↔
      AttachParameterAdmits n P W (attachParameters W m l)) ∧
    ((ebpfExtensionHookCheckAttachParameter n P W hd m).1 = .success ∨
      (ebpfExtensionHookCheckAttachParameter n P W hd m).1 = .accessDenied) :=
  ⟨ebpfExtensionHookCheckAttachParameter_mem n P W, ebpfExtensionHookCheckAttachParameter_success_iff hl n P W,
    ebpfExtensionHookCheckAttachParameter_result n P W⟩

/-- provider（`1`）に client（`2`、parameter `[1, 2, 3]`）が一つつながったメモリ。 -/
def oneClientMemory : Memory :=
  { Memory.empty with
    links := fun x => if x = 1 then ⟨2, 2⟩ else if x = 2 then ⟨1, 1⟩ else ⟨0, 0⟩
    pool := fun x =>
      if x = 1 then .live .provider
      else if x = 2 then .live (.client { HookClient.zero with clientData := ⟨some [1, 2, 3]⟩ })
      else .unallocated
    lastAddr := 2 }

/-- 同じ parameter の二つ目は断られ、別の parameter なら通る。 -/
theorem checkAttachParameter_oneClient :
    ClientList oneClientMemory 1 [2] ∧
    ((ebpfExtensionHookCheckAttachParameter 3 [1, 2, 3] [0, 0, 0] 1 oneClientMemory).2 = oneClientMemory ∧
    ((ebpfExtensionHookCheckAttachParameter 3 [1, 2, 3] [0, 0, 0] 1 oneClientMemory).1 = .success ↔
      AttachParameterAdmits 3 [1, 2, 3] [0, 0, 0] (attachParameters [0, 0, 0] oneClientMemory [2])) ∧
    ((ebpfExtensionHookCheckAttachParameter 3 [1, 2, 3] [0, 0, 0] 1 oneClientMemory).1 = .success ∨
      (ebpfExtensionHookCheckAttachParameter 3 [1, 2, 3] [0, 0, 0] 1 oneClientMemory).1 = .accessDenied)) :=
  have h : ClientList oneClientMemory 1 [2] := by decide
  ⟨h, ebpfExtensionHookCheckAttachParameter_spec h 3 [1, 2, 3] [0, 0, 0]⟩

example : (ebpfExtensionHookCheckAttachParameter 3 [1, 2, 3] [0, 0, 0] 1 oneClientMemory).1 = .accessDenied ∧
    (ebpfExtensionHookCheckAttachParameter 3 [4, 5, 6] [0, 0, 0] 1 oneClientMemory).1 = .success := by
  decide

end EbpfExt
