import EbpfExt.Basic
import Mathlib.Data.List.Nodup

/-!
# `LIST_ENTRY`

WDK の循環双方向リスト。`wdm.h` の inline 定義のとおりに書く。

* `InitializeListHead` — head の `Flink` と `Blink` を head 自身にする
* `IsListEmpty` — head の `Flink` が head か
* `InsertTailList` — head の `Blink`（最後の entry）の後ろにつなぐ
* `RemoveEntryList` — 前後をつなぎ直す。外した entry 自身の `Flink` と `Blink` は書き換えない

書き込みの二つは、つなぎ直す前に前後の entry が互いを指しているかを確かめ、
壊れていれば `FatalListEntryError` で止まる（bugcheck）。ここではそれを `none` とする。

## 表現

`Seg m p xs q` は「`p` の次から `Flink` で `xs` を順にたどると、その次が `q`。`Blink` はその逆」。
head `hd` のリストの中身が `l` であることを `ListRep m hd l`（`Seg m hd l hd` で、`hd :: l` に重複がない）で言う。

* `insertTailList_listRep` — `InsertTailList` は中身を `l ++ [e]` にする
* `removeEntryList_listRep` — `RemoveEntryList` は中身を `l.erase e` にし、`e` 自身の entry は残す
* `walk_eq_of_listRep` — head から `Flink` をたどると `l` を順に通って head に戻る
-/

namespace EbpfExt

/-- `LIST_ENTRY`。 -/
structure ListEntry where
  flink : Nat
  blink : Nat
  deriving DecidableEq, Repr

/-- 各アドレスにある `LIST_ENTRY`。 -/
abbrev Links := Nat → ListEntry

namespace Links

/-- `e->Flink = f`。 -/
def setFlink (m : Links) (e f : Nat) : Links :=
  fun x => if x = e then { m x with flink := f } else m x

/-- `e->Blink = b`。 -/
def setBlink (m : Links) (e b : Nat) : Links :=
  fun x => if x = e then { m x with blink := b } else m x

@[simp] theorem setFlink_flink (m : Links) (e f x : Nat) :
    (m.setFlink e f x).flink = if x = e then f else (m x).flink := by
  unfold setFlink; split <;> rfl

@[simp] theorem setFlink_blink (m : Links) (e f x : Nat) : (m.setFlink e f x).blink = (m x).blink := by
  unfold setFlink; split <;> rfl

@[simp] theorem setBlink_flink (m : Links) (e b x : Nat) : (m.setBlink e b x).flink = (m x).flink := by
  unfold setBlink; split <;> rfl

@[simp] theorem setBlink_blink (m : Links) (e b x : Nat) :
    (m.setBlink e b x).blink = if x = e then b else (m x).blink := by
  unfold setBlink; split <;> rfl

theorem setFlink_of_ne {m : Links} {e f x : Nat} (h : x ≠ e) : m.setFlink e f x = m x := by
  simp [setFlink, h]

theorem setBlink_of_ne {m : Links} {e b x : Nat} (h : x ≠ e) : m.setBlink e b x = m x := by
  simp [setBlink, h]

end Links

/-! ## WDK の操作 -/

/-- `InitializeListHead`：`ListHead->Flink = ListHead->Blink = ListHead`。 -/
def initializeListHead (m : Links) (hd : Nat) : Links := (m.setFlink hd hd).setBlink hd hd

/-- `IsListEmpty`：`ListHead->Flink == ListHead`。 -/
def isListEmpty (m : Links) (hd : Nat) : Bool := (m hd).flink == hd

/-- `InsertTailList`。`PrevEntry->Flink != ListHead` なら `FatalListEntryError`。 -/
def insertTailList (m : Links) (hd e : Nat) : Option Links :=
  let prevEntry := (m hd).blink
  if (m prevEntry).flink ≠ hd then none
  else some ((((m.setFlink e hd).setBlink e prevEntry).setFlink prevEntry e).setBlink hd e)

/--
`RemoveEntryList`。前後の entry が `e` を指していなければ `FatalListEntryError`。
返す `Bool` は `PrevEntry == NextEntry`（リストが空になったか）。
-/
def removeEntryList (m : Links) (e : Nat) : Option (Bool × Links) :=
  let nextEntry := (m e).flink
  let prevEntry := (m e).blink
  if (m nextEntry).blink ≠ e ∨ (m prevEntry).flink ≠ e then none
  else some (prevEntry == nextEntry, (m.setFlink prevEntry nextEntry).setBlink nextEntry prevEntry)

/-- `link` から `Flink` をたどって `hd` に戻るまでに通る entry。`fuel` 個で打ち切る。 -/
def walk (m : Links) (hd : Nat) : Nat → Nat → List Nat
  | 0, _ => []
  | fuel + 1, link => if link = hd then [] else link :: walk m hd fuel (m link).flink

/-! ## リストの区間 -/

/-- `p` の次から `Flink` で `xs` を順にたどると `q` に着き、`Blink` がその逆を指す。 -/
def Seg (m : Links) : Nat → List Nat → Nat → Prop
  | p, [], q => (m p).flink = q ∧ (m q).blink = p
  | p, x :: xs, q => (m p).flink = x ∧ (m x).blink = p ∧ Seg m x xs q

instance Seg.decidable (m : Links) : (p : Nat) → (xs : List Nat) → (q : Nat) → Decidable (Seg m p xs q)
  | _, [], _ => inferInstanceAs (Decidable (_ ∧ _))
  | _, x :: xs, q =>
    haveI := Seg.decidable m x xs q
    inferInstanceAs (Decidable (_ ∧ _ ∧ _))

/-- head `hd` のリストの中身がちょうど `l`。 -/
def ListRep (m : Links) (hd : Nat) (l : List Nat) : Prop := (hd :: l).Nodup ∧ Seg m hd l hd

instance (m : Links) (hd : Nat) (l : List Nat) : Decidable (ListRep m hd l) :=
  inferInstanceAs (Decidable (_ ∧ _))

variable {m m' : Links} {p q a e hd : Nat} {xs ys l : List Nat}

@[simp] theorem seg_nil : Seg m p [] q ↔ (m p).flink = q ∧ (m q).blink = p := Iff.rfl

@[simp] theorem seg_cons {x : Nat} :
    Seg m p (x :: xs) q ↔ (m p).flink = x ∧ (m x).blink = p ∧ Seg m x xs q := Iff.rfl

theorem seg_append {y : Nat} : Seg m p (xs ++ y :: ys) q ↔ Seg m p xs y ∧ Seg m y ys q := by
  induction xs generalizing p with
  | nil => simp [and_assoc]
  | cons x xs ih => simp [ih, and_assoc]

/-- 区間の最初の `Flink` は区間の中（か終点）を指す。 -/
theorem Seg.flink_mem (h : Seg m p xs q) : (m p).flink ∈ xs ++ [q] := by
  cases xs with
  | nil => simp [h.1]
  | cons x xs => simp [h.1]

/-- 終点の `Blink` は区間の中（か始点）を指す。 -/
theorem Seg.blink_mem (h : Seg m p xs q) : (m q).blink ∈ p :: xs := by
  induction xs generalizing p with
  | nil => simp [h.2]
  | cons x xs ih => exact List.mem_cons_of_mem _ (ih h.2.2)

theorem Seg.blink_flink_start (h : Seg m p xs q) : (m (m p).flink).blink = p := by
  cases xs with
  | nil => rw [h.1]; exact h.2
  | cons x xs => rw [h.1]; exact h.2.1

theorem Seg.flink_blink_end (h : Seg m p xs q) : (m (m q).blink).flink = q := by
  induction xs generalizing p with
  | nil => rw [h.2]; exact h.1
  | cons x xs ih => exact ih h.2.2

/-- 区間の entry の `Flink`（始点を含む）と `Blink`（終点を含む）が変わらなければ、区間はそのまま。 -/
theorem Seg.frame (h : Seg m p xs q) (hf : ∀ a ∈ p :: xs, (m' a).flink = (m a).flink)
    (hb : ∀ a ∈ xs ++ [q], (m' a).blink = (m a).blink) : Seg m' p xs q := by
  induction xs generalizing p with
  | nil => simp_all
  | cons x xs ih =>
    obtain ⟨h1, h2, h3⟩ := h
    refine ⟨by rw [hf p (by simp), h1], by rw [hb x (by simp), h2], ih h3 ?_ ?_⟩
    · exact fun a ha => hf a (List.mem_cons_of_mem _ ha)
    · exact fun a ha => hb a (List.mem_cons_of_mem x ha)

/-! ## 初期化と空判定 -/

theorem listRep_initializeListHead : ListRep (initializeListHead m hd) hd [] := by
  simp [ListRep, initializeListHead]

theorem isListEmpty_iff (h : ListRep m hd l) : isListEmpty m hd = true ↔ l = [] := by
  obtain ⟨hnd, hs⟩ := h
  cases l with
  | nil => simp [isListEmpty, hs.1]
  | cons x l =>
    have hx : x ≠ hd := fun hx => by simp [hx] at hnd
    simp [isListEmpty, hs.1, hx]

/-! ## `InsertTailList` -/

/-- 空でないリストを最後の entry で切る。 -/
theorem seg_snoc_iff {z : Nat} : Seg m p (xs ++ [z]) q ↔ Seg m p xs z ∧ (m z).flink = q ∧ (m q).blink = z := by
  simp [seg_append]

theorem insertTailList_listRep (h : ListRep m hd l) (he : e ∉ hd :: l) :
    ∃ m', insertTailList m hd e = some m' ∧ ListRep m' hd (l ++ [e]) := by
  obtain ⟨hnd, hs⟩ := h
  have hne : e ≠ hd := fun h' => he (by simp [h'])
  have hnd' : (hd :: (l ++ [e])).Nodup :=
    List.nodup_append.mpr ⟨hnd, List.nodup_singleton e, List.disjoint_singleton.mpr he⟩
  simp only [insertTailList, hs.flink_blink_end, ne_eq, not_true_eq_false, if_false,
    Option.some.injEq, exists_eq_left']
  refine ⟨hnd', ?_⟩
  rcases List.eq_nil_or_concat l with rfl | ⟨l', z, rfl⟩
  · have hb : (m hd).blink = hd := hs.2
    simp [hb, hne, Ne.symm hne]
  · rw [List.concat_eq_append] at *
    obtain ⟨hs', hzf, hzb⟩ := seg_snoc_iff.mp hs
    have hzs : z ∉ hd :: l' := List.disjoint_singleton.mp (List.nodup_append.mp (show (hd :: l' ++ [z]).Nodup from hnd)).2.2
    have hel : e ∉ hd :: l' := fun h' => he (List.mem_append_left [z] h')
    have hez : e ≠ z := fun h' => he (List.mem_cons_of_mem hd (List.mem_append_right l' (List.mem_singleton.mpr h')))
    have hhd : hd ∉ l' ++ [z] := (List.nodup_cons.mp hnd).1
    rw [List.append_assoc, List.singleton_append, seg_append, hzb]
    refine ⟨hs'.frame (fun a ha => ?_) (fun a ha => ?_), by simp [hez, hne, Ne.symm hez, Ne.symm hne]⟩
    · have haz : a ≠ z := fun h' => hzs (h' ▸ ha)
      have hae : a ≠ e := fun h' => hel (h' ▸ ha)
      simp [haz, hae]
    · have hahd : a ≠ hd := fun h' => hhd (h' ▸ ha)
      have hae : a ≠ e := fun h' => he (h' ▸ List.mem_cons_of_mem hd ha)
      simp [hahd, hae]

/-! ## `RemoveEntryList` -/

/-- `a` の前後をつなぎ直すと、`a` を挟む二つの区間が一つになる。 -/
theorem seg_unlink (hp : Seg m p xs a) (hq : Seg m a ys q)
    (hn1 : (p :: xs ++ a :: ys).Nodup) (hn2 : (xs ++ a :: ys ++ [q]).Nodup) :
    Seg ((m.setFlink (m a).blink (m a).flink).setBlink (m a).flink (m a).blink) p (xs ++ ys) q := by
  induction xs generalizing p with
  | nil =>
    rw [hp.2]
    cases ys with
    | nil => simp [hq.1]
    | cons y ys =>
      obtain ⟨hy1, hy2, hy3⟩ := hq
      rw [hy1]
      refine ⟨by simp, by simp, hy3.frame (fun b hb => ?_) (fun b hb => ?_)⟩
      · have hbp : b ≠ p := fun h' => (List.nodup_cons.mp hn1).1 (h' ▸ List.mem_cons_of_mem a hb)
        simp [hbp]
      · have hby : b ≠ y := fun h' => (List.nodup_cons.mp (List.nodup_cons.mp hn2).2).1 (h' ▸ hb)
        simp [hby]
  | cons x xs ih =>
    obtain ⟨hx1, hx2, hx3⟩ := hp
    have hprev : p ≠ (m a).blink := fun h' =>
      (List.nodup_cons.mp hn1).1 (List.mem_append_left _ (h' ▸ hx3.blink_mem))
    have hnext : x ≠ (m a).flink := fun h' => by
      have hx := List.mem_append.mp (h' ▸ hq.flink_mem : x ∈ ys ++ [q])
      exact (List.nodup_cons.mp hn2).1
        (List.mem_append.mpr (hx.imp_left fun h => List.mem_append_right xs (List.mem_cons_of_mem a h)))
    refine ⟨by simp [hprev, hx1], by simp [hnext, hx2], ih hx3 ?_ ?_⟩
    · exact (List.nodup_cons.mp hn1).2
    · exact (List.nodup_cons.mp hn2).2

theorem listRep_split (h : ListRep m hd (xs ++ e :: ys)) : Seg m hd xs e ∧ Seg m e ys hd :=
  seg_append.mp h.2

theorem ListRep.nodup_snoc (h : ListRep m hd l) : (l ++ [hd]).Nodup :=
  List.perm_append_singleton hd l |>.nodup_iff.mpr h.1

/-- `RemoveEntryList` は `e` をリストから外し、`e` 自身の `LIST_ENTRY` は書き換えない。 -/
theorem removeEntryList_listRep (h : ListRep m hd l) (he : e ∈ l) :
    ∃ b m', removeEntryList m e = some (b, m') ∧ ListRep m' hd (l.erase e) ∧ m' e = m e := by
  obtain ⟨xs, ys, rfl⟩ := List.append_of_mem he
  have hsn := h.nodup_snoc
  obtain ⟨hp, hq⟩ := listRep_split h
  have hex : e ∉ hd :: xs := by
    have := h.1; simp only [← List.cons_append, List.nodup_append] at this; simp_all
  have hey : e ∉ ys ++ [hd] := by
    simp only [List.nodup_append, List.append_assoc] at hsn; simp_all
  have hprev : e ≠ (m e).blink := fun h' => hex (h' ▸ hp.blink_mem)
  have hnext : e ≠ (m e).flink := fun h' => hey (h' ▸ hq.flink_mem)
  refine ⟨(m e).blink == (m e).flink,
    (m.setFlink (m e).blink (m e).flink).setBlink (m e).flink (m e).blink, ?_, ⟨?_, ?_⟩, ?_⟩
  · simp only [removeEntryList, hq.blink_flink_start, hp.flink_blink_end, ne_eq, not_true_eq_false,
      or_self, if_false]
  · rw [List.erase_append_right _ (fun h' => hex (List.mem_cons_of_mem _ h')), List.erase_cons_head]
    exact (h.1.sublist (by simp))
  · rw [List.erase_append_right _ (fun h' => hex (List.mem_cons_of_mem _ h')), List.erase_cons_head]
    exact seg_unlink hp hq h.1 hsn
  · rw [Links.setBlink_of_ne hnext, Links.setFlink_of_ne hprev]

/-! ## `Flink` をたどる -/

theorem walk_of_seg {fuel : Nat} (h : Seg m p xs hd) (hx : hd ∉ xs) (hf : xs.length < fuel) :
    walk m hd fuel (m p).flink = xs := by
  induction xs generalizing p fuel with
  | nil =>
    cases fuel with
    | zero => simp at hf
    | succ f => simp [walk, h.1]
  | cons x xs ih =>
    cases fuel with
    | zero => simp at hf
    | succ f =>
      have hxh : x ≠ hd := fun h' => hx (by simp [h'])
      rw [h.1, walk, if_neg hxh,
        ih h.2.2 (fun h' => hx (List.mem_cons_of_mem _ h')) (by simp at hf; omega)]

/-- head から `Flink` をたどると、リストの中身を順に通って head に戻る。 -/
theorem walk_eq_of_listRep {fuel : Nat} (h : ListRep m hd l) (hf : l.length < fuel) :
    walk m hd fuel (m hd).flink = l :=
  walk_of_seg h.2 (List.nodup_cons.mp h.1).1 hf

/-- リストの entry はどれも、前後の entry と互いに指し合っている。 -/
theorem ListRep.flink_blink (h : ListRep m hd l) (he : e ∈ hd :: l) :
    (m (m e).flink).blink = e ∧ (m (m e).blink).flink = e := by
  rcases List.mem_cons.mp he with rfl | he
  · exact ⟨h.2.blink_flink_start, h.2.flink_blink_end⟩
  · obtain ⟨xs, ys, rfl⟩ := List.append_of_mem he
    obtain ⟨hp, hq⟩ := listRep_split h
    exact ⟨hq.blink_flink_start, hp.flink_blink_end⟩

/-- リストの entry の `Flink` と `Blink` は、リストの entry を指す。 -/
theorem ListRep.links_mem (h : ListRep m hd l) (he : e ∈ hd :: l) :
    (m e).flink ∈ hd :: l ∧ (m e).blink ∈ hd :: l := by
  rcases List.mem_cons.mp he with rfl | he
  · have hf := h.2.flink_mem
    simp only [List.mem_append, List.mem_singleton] at hf
    exact ⟨List.mem_cons.mpr hf.symm, h.2.blink_mem⟩
  · obtain ⟨xs, ys, rfl⟩ := List.append_of_mem he
    obtain ⟨hp, hq⟩ := listRep_split h
    have hf := hq.flink_mem
    have hb := hp.blink_mem
    simp only [List.mem_append, List.mem_singleton, List.mem_cons, List.not_mem_nil, or_false] at hf hb ⊢
    exact ⟨hf.elim (fun h => .inr (.inr (.inr h))) .inl, hb.elim .inl (fun h => .inr (.inl h))⟩

/-- `InsertTailList` が書き換えるのは、head と、最後の entry と、新しい entry だけ。 -/
theorem insertTailList_of_ne {m' : Links} {x : Nat} (h : insertTailList m hd e = some m') (hx : x ≠ hd)
    (hp : x ≠ (m hd).blink) (he : x ≠ e) : m' x = m x := by
  unfold insertTailList at h
  dsimp only at h
  split_ifs at h
  cases h
  simp only [Links.setBlink_of_ne hx, Links.setFlink_of_ne hp, Links.setBlink_of_ne he, Links.setFlink_of_ne he]

/-- `RemoveEntryList` が書き換えるのは、前後の entry だけ。 -/
theorem removeEntryList_of_ne {m' : Links} {b : Bool} {x : Nat} (h : removeEntryList m e = some (b, m'))
    (hp : x ≠ (m e).blink) (hn : x ≠ (m e).flink) : m' x = m x := by
  unfold removeEntryList at h
  dsimp only at h
  split_ifs at h
  cases h
  simp only [Links.setBlink_of_ne hn, Links.setFlink_of_ne hp]

end EbpfExt
