import Mathlib.Data.List.Basic

/-!
# 基本の型

`ebpf_ext_hook_provider.c` が読み書きする値の型。

* アドレスは `Nat` で、`0` が `NULL` である（`omega` がそのまま扱えるよう、別名は付けない）。
* NTSTATUS は 32 bit の値で、`NT_SUCCESS` は符号付きで見て 0 以上であること。
* `ebpf_result_t` は hook の callback と `ebpf_extension_hook_check_attach_parameter` が返す値。
* attach parameter はバイト列で、`memcmp` で先頭 `attach_parameter_size` バイトだけを比べる。
-/

namespace EbpfExt

/-! ## NTSTATUS -/

/-- NTSTATUS。 -/
abbrev NtStatus := UInt32

def statusSuccess : NtStatus := 0x00000000
def statusPending : NtStatus := 0x00000103
def statusAccessDenied : NtStatus := 0xC0000022
def statusInvalidParameter : NtStatus := 0xC000000D
def statusInsufficientResources : NtStatus := 0xC000009A

/-- `NT_SUCCESS`：`(NTSTATUS)s >= 0`、つまり最上位 bit が立っていない。 -/
def ntSuccess (s : NtStatus) : Bool := s.toNat < 0x80000000

@[simp] theorem ntSuccess_statusSuccess : ntSuccess statusSuccess = true := rfl
@[simp] theorem ntSuccess_statusPending : ntSuccess statusPending = true := rfl
@[simp] theorem ntSuccess_statusAccessDenied : ntSuccess statusAccessDenied = false := rfl
@[simp] theorem ntSuccess_statusInvalidParameter : ntSuccess statusInvalidParameter = false := rfl
@[simp] theorem ntSuccess_statusInsufficientResources :
    ntSuccess statusInsufficientResources = false := rfl

/-! ## `ebpf_result_t` -/

/--
`ebpf_result_t` のうち、この provider と hook の callback が返すもの。

provider は callback の結果を `EBPF_SUCCESS` と比べるだけなので、失敗の値はどれでも同じに扱われる。
-/
inductive EbpfResult
  | success
  | noMemory
  | invalidArgument
  | accessDenied
  deriving DecidableEq, Repr

/-! ## バイト列と `memcmp` -/

/-- attach parameter のようなバイト列。 -/
abbrev Bytes := List UInt8

/--
C の `memcmp(s1, s2, n)`。先頭 `n` バイトを unsigned char として前から比べ、最初に違うバイトの差を返す。

列が `n` バイトに満たないところは C では読み越しになる。ここでは短い方を小さいとする。
-/
def memcmp : Bytes → Bytes → Nat → Int
  | _, _, 0 => 0
  | [], [], _ + 1 => 0
  | [], _ :: _, _ + 1 => -1
  | _ :: _, [], _ + 1 => 1
  | a :: s1, b :: s2, n + 1 => if a = b then memcmp s1 s2 n else (a.toNat : Int) - b.toNat

/-- `memcmp` が 0 を返すのは、先頭 `n` バイトが等しいときに限る。 -/
theorem memcmp_eq_zero_iff {s1 s2 : Bytes} {n : Nat} : memcmp s1 s2 n = 0 ↔ s1.take n = s2.take n := by
  induction n generalizing s1 s2 with
  | zero => simp [memcmp]
  | succ n ih =>
    match s1, s2 with
    | [], [] => simp [memcmp]
    | [], _ :: _ => simp [memcmp]
    | _ :: _, [] => simp [memcmp]
    | a :: s1, b :: s2 =>
      by_cases hab : a = b
      · simp [memcmp, hab, ih]
      · have hne : (a.toNat : Int) - b.toNat ≠ 0 := by
          have : a.toNat ≠ b.toNat := fun h => hab (UInt8.toNat.inj h)
          omega
        simp [memcmp, hab, hne]

/-! ## `ebpf_extension_data_t` -/

/-- client が `NpiSpecificCharacteristics` として渡す `ebpf_extension_data_t`。provider は `data` だけを読む。 -/
structure ExtensionData where
  /-- attach parameter。`none` が `NULL`。 -/
  data : Option Bytes
  deriving DecidableEq, Repr

end EbpfExt
