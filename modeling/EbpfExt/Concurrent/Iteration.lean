import EbpfExt.Concurrent.Links

/-!
# client をたどる thread と detach

`ebpf_extension_hook_get_next_attached_client` は、前に返した client の `Flink` を共有 lock の中で読む。
その client が二つの呼び出しのあいだに detach されていれば、読むのは外されたときのまま残った `Flink` である。
たどる thread はその client の rundown の参照を持たないので、後片付けが record を解放した後なら、読むのは
解放したブロックである。

* `reach_getNextAttachedClient` — 前の client が後片付けされていれば次の呼び出しは解放したブロックを読み、
  そうでなければ進む。結果は `NULL` か一度つながった client で、`NULL` から始めればリストの先頭、前の client
  がまだリストにあれば、結果はリストでのその次
* `getNext_afterTwoDetaches` — たどっている client とその次を detach すると、リストにない client が返る
* `reach_iterate_useAfterFree_iff` — 前に返った client の後片付けが済んでいれば、次の呼び出しは解放した
  ブロックを読み、そのときに限る
-/

namespace EbpfExt

variable {cb : AttachCallback} {hd : Nat} {s s' : Sys}

/-- たどる thread のいる client のブロックが生きているのは、binding context の後片付けの前だけ。 -/
theorem Reach.cursor_isLive_iff (hs : Reach cb hd s) {t c : Nat} (ht : s.iterators[t]? = some (.cursor c)) :
    (s.mem.pool c).isLive = true ↔ s.phase c ≠ .cleanedUp :=
  (hs.inv.record c).isLive_iff (hs.linkInv.cursor t c ht)

/-! ## 次の client -/

/--
たどる thread の次の `ebpf_extension_hook_get_next_attached_client(p, c)`。`c` は `NULL` か、前に受け取った
client。`c` の binding context が後片付けされていれば、呼び出しは解放したブロックを読み、そのときに限る。
そうでなければ呼び出しは進み、結果は `NULL` か一度リストにつながった client で、`NULL` から始めればリストの
先頭、`c` がまだリストにあればリストでの `c` の次（`c` が最後なら `NULL`）。
-/
theorem reach_getNextAttachedClient (hs : Reach cb hd s) {t c : Nat}
    (ht : s.iterators[t]? = some .start ∧ c = 0 ∨ s.iterators[t]? = some (.cursor c)) :
    (step cb hd s (.iterate t) = .useAfterFree ↔ s.phase c = .cleanedUp) ∧
    (s.phase c ≠ .cleanedUp →
      step cb hd s (.iterate t) = .next { s with iterators := (s.iterators.set t
        (if (ebpfExtensionHookGetNextAttachedClient hd c s.mem).1 = 0 then .done
          else .cursor (ebpfExtensionHookGetNextAttachedClient hd c s.mem).1)) } ∧
      ((ebpfExtensionHookGetNextAttachedClient hd c s.mem).1 = 0 ∨
        (s.phase (ebpfExtensionHookGetNextAttachedClient hd c s.mem).1).linked = true) ∧
      (c = 0 → (ebpfExtensionHookGetNextAttachedClient hd c s.mem).1 = s.attached.headD 0) ∧
      ∀ xs ys, s.attached = xs ++ c :: ys → (ebpfExtensionHookGetNextAttachedClient hd c s.mem).1 = ys.headD 0) := by
  have hi := hs.inv
  have hstep : s.phase c ≠ .cleanedUp → step cb hd s (.iterate t) = .next { s with iterators := (s.iterators.set t
      (if (ebpfExtensionHookGetNextAttachedClient hd c s.mem).1 = 0 then .done
        else .cursor (ebpfExtensionHookGetNextAttachedClient hd c s.mem).1)) } := fun hp =>
    step_iterate_of_live (ht.imp_right fun ht => ⟨ht, (hs.cursor_isLive_iff ht).mpr hp⟩)
  refine ⟨?_, fun hp => ⟨hstep hp, hs.linkInv.getNext_linked hi (ht.imp (·.2) (hs.linkInv.cursor t c)), ?_, ?_⟩⟩
  · rcases ht with ⟨-, rfl⟩ | ht
    · exact iff_of_false (by rw [hstep (by rw [hi.phase_null]; nofun)]; nofun) (by rw [hi.phase_null]; nofun)
    · rw [step_iterate_eq_useAfterFree ht, Bool.eq_false_iff, ne_eq, hs.cursor_isLive_iff ht, not_not]
  · rintro rfl
    rw [ebpfExtensionHookGetNextAttachedClient_null, ebpfExtensionHookGetAttachedClient_listRep hi.clientList.1]
  · intro xs ys hL
    have hc0 : c ≠ 0 := fun h => by
      have := (hi.attached_iff c).mp (hL ▸ List.mem_append_right xs (List.mem_cons_self c ys))
      rw [h, hi.phase_null] at this
      cases this
    have hrep := hi.clientList.1
    rw [hL] at hrep
    obtain ⟨-, hq⟩ := listRep_split hrep
    rw [ebpfExtensionHookGetNextAttachedClient_of_ne hc0]
    cases ys with
    | nil => simp [hq.1]
    | cons y ys =>
      have hy : y ≠ hd := fun h => (List.nodup_cons.mp hrep.1).1 (by simp [h])
      simp [hq.1, hy]

/-- client `2` と `3` を attach し、たどる thread `0` が `2` まで進んだところで、`2` と `3` を detach する。 -/
def twoDetachesEvents : List Event :=
  [.attachBegin ⟨true, true⟩ sameParameterArgs, .attachCallback 2, .attachInsert 2,
    .attachBegin ⟨true, true⟩ otherParameterArgs, .attachCallback 3, .attachInsert 3,
    .iterate 0, .detach 2, .detach 3]

theorem reach_getNextAttachedClient_twoDetaches :
    ∃ s, Reach (checkingCallback 3 [0, 0, 0] 1) 1 s ∧ s.iterators[0]? = some (.cursor 2) ∧ s.phase 2 = .detached ∧
      ((step (checkingCallback 3 [0, 0, 0] 1) 1 s (.iterate 0) = .useAfterFree ↔ s.phase 2 = .cleanedUp) ∧
      (s.phase 2 ≠ .cleanedUp →
        step (checkingCallback 3 [0, 0, 0] 1) 1 s (.iterate 0) = .next { s with iterators := (s.iterators.set 0
          (if (ebpfExtensionHookGetNextAttachedClient 1 2 s.mem).1 = 0 then .done
            else .cursor (ebpfExtensionHookGetNextAttachedClient 1 2 s.mem).1)) } ∧
        ((ebpfExtensionHookGetNextAttachedClient 1 2 s.mem).1 = 0 ∨
          (s.phase (ebpfExtensionHookGetNextAttachedClient 1 2 s.mem).1).linked = true) ∧
        (2 = 0 → (ebpfExtensionHookGetNextAttachedClient 1 2 s.mem).1 = s.attached.headD 0) ∧
        ∀ xs ys, s.attached = xs ++ 2 :: ys → (ebpfExtensionHookGetNextAttachedClient 1 2 s.mem).1 = ys.headD 0)) :=
  have hs := reach_of_registered_run (checkingCallback 3 [0, 0, 0] 1) 0 1 twoDetachesEvents rfl
  ⟨_, hs, rfl, rfl, reach_getNextAttachedClient hs (.inr rfl)⟩

/--
たどっている client `2` とその次の `3` が detach された後、`2` の次として読まれるのは `2` に残った `Flink`
で、返る `3` はもうリストにない。
-/
theorem getNext_afterTwoDetaches :
    ∃ s, Reach (checkingCallback 3 [0, 0, 0] 1) 1 s ∧ s.iterators[0]? = some (.cursor 2) ∧
      (ebpfExtensionHookGetNextAttachedClient 1 2 s.mem).1 = 3 ∧ 3 ∉ s.attached :=
  ⟨_, reach_of_registered_run _ 0 1 twoDetachesEvents rfl, rfl, rfl, by decide⟩

/-! ## 解放された client からたどる -/

/--
たどる thread は、前に返った client の rundown の参照を持たない。その client の binding context が後片付け
されていれば、次の `ebpf_extension_hook_get_next_attached_client` は解放したブロックを読み、そのときに限る。
-/
theorem reach_iterate_useAfterFree_iff (hs : Reach cb hd s) {t c : Nat} (ht : s.iterators[t]? = some (.cursor c)) :
    step cb hd s (.iterate t) = .useAfterFree ↔ s.phase c = .cleanedUp := by
  rw [step_iterate_eq_useAfterFree ht, Bool.eq_false_iff, ne_eq, hs.cursor_isLive_iff ht, not_not]

/-- 上の二つの detach の後、`2` の完了の work item と後片付けが済み、thread `0` が `2` から先をたどる。 -/
def iterateAfterCleanupEvents : List Event := twoDetachesEvents ++ [.completionBegin 2, .completionEnd 2, .cleanup 2]

theorem reach_iterate_useAfterFree_iff_cleanedUp :
    ∃ s, Reach (checkingCallback 3 [0, 0, 0] 1) 1 s ∧ s.iterators[0]? = some (.cursor 2) ∧
      (step (checkingCallback 3 [0, 0, 0] 1) 1 s (.iterate 0) = .useAfterFree ↔ s.phase 2 = .cleanedUp) :=
  have hs := reach_of_registered_run (checkingCallback 3 [0, 0, 0] 1) 0 1 iterateAfterCleanupEvents rfl
  ⟨_, hs, rfl, reach_iterate_useAfterFree_iff hs rfl⟩

end EbpfExt
