import StubServer.Proofs.Service.Request
import StubServer.Proofs.Text.Utf8

/-!
# Ways of writing a path

A client may write any octet of a path as an escape, and some it has to: the percent sign, which
begins an escape, and the question mark and the number sign, at which a path ends. All ways of
writing a path lead to it:

> `decodePath_of_escaped`: if the octets of a raw path are a way of writing those of a text
> (`Escaped`), the path is that text.

So requests whose targets are written differently are the same dispatch (`request_path`). It
makes no difference where the escapes are, for they are decoded before the octets are read as
characters; only if there is no such text, the raw path stands for itself.
-/

namespace StubServer

namespace Http

open Text

/-! ## Escapes -/

/-- An octet that stands for itself in a path. -/
def isPlain (b : UInt8) : Bool :=
  b != 0x25 && b != 0x3F && b != 0x23

/-- A hexadecimal digit of a given value, with a letter of either case. -/
def hexDigit (upper : Bool) (value : Nat) : UInt8 :=
  UInt8.ofNat (if value < 10 then 0x30 + value else (if upper then 0x41 else 0x61) + (value - 10))

/-- The ways of writing a sequence of octets: each is written as itself or as an escape. -/
inductive Escaped : List UInt8 → List UInt8 → Prop
  | nil : Escaped [] []
  | plain {b : UInt8} {bs written : List UInt8} (hplain : isPlain b = true)
      (hrest : Escaped bs written) : Escaped (b :: bs) (b :: written)
  | escape {b : UInt8} {bs written : List UInt8} (upper upper' : Bool)
      (hrest : Escaped bs written) :
    Escaped (b :: bs)
      (0x25 :: hexDigit upper (b.toNat / 16) :: hexDigit upper' (b.toNat % 16) :: written)

theorem hexOctet?_hexDigit : ∀ (upper : Bool) (value : Fin 16),
    hexOctet? (hexDigit upper value) = some value.val := by
  decide

/-- Two digits write the octet whose halves they are. -/
theorem hexPair?_hexDigit (upper upper' : Bool) (b : UInt8) :
    hexPair? (hexDigit upper (b.toNat / 16)) (hexDigit upper' (b.toNat % 16)) = some b := by
  have hb := b.toNat_lt
  have hhigh := hexOctet?_hexDigit upper ⟨b.toNat / 16, by omega⟩
  have hlow := hexOctet?_hexDigit upper' ⟨b.toNat % 16, by omega⟩
  dsimp only at hhigh hlow
  unfold hexPair?
  rw [hhigh, hlow]
  refine congrArg some (Utf8.octet_eq ?_)
  omega

/-- What is no percent sign is not changed. -/
theorem percentDecode_plain {b : UInt8} (h : b ≠ 0x25) (bs : List UInt8) :
    percentDecode (b :: bs) = b :: percentDecode bs := by
  match bs with
  | [] => rfl
  | [_] => rfl
  | _ :: _ :: _ => rw [percentDecode, if_neg h]

theorem percentDecode_escape {a a' b : UInt8} (h : hexPair? a a' = some b) (bs : List UInt8) :
    percentDecode (0x25 :: a :: a' :: bs) = b :: percentDecode bs := by
  rw [percentDecode, if_pos rfl, h]

/-- Decoding finds the octets that were written. -/
theorem percentDecode_of_escaped {bs written : List UInt8} (h : Escaped bs written) :
    percentDecode written = bs := by
  induction h with
  | nil => rfl
  | @plain b _ _ hplain _ ih =>
    have hb : b ≠ 0x25 := by
      rintro rfl
      cases hplain
    rw [percentDecode_plain hb, ih]
  | escape upper upper' _ ih => rw [percentDecode_escape (hexPair?_hexDigit upper upper' _), ih]

/-- A path that is written in any of these ways is that path. -/
theorem decodePath_of_escaped {path : String} {raw : List Char}
    (h : Escaped (Utf8.encode path.toList) (Utf8.encode raw)) :
    String.ofList (decodePath raw) = path := by
  unfold decodePath
  rw [percentDecode_of_escaped h, Utf8.decode_encode, Option.getD_some, String.ofList_toList]

/-- A path that no text is written as is itself. -/
theorem decodePath_of_notText {raw : List Char}
    (h : ∀ text, Utf8.encode text ≠ percentDecode (Utf8.encode raw)) : decodePath raw = raw := by
  unfold decodePath
  rw [Utf8.decode_eq_none_iff.mpr h]
  rfl

/-! ## Targets -/

theorem hexDigit_ne : ∀ (upper : Bool) (value : Fin 16),
    hexDigit upper value ≠ 0x3F ∧ hexDigit upper value ≠ 0x23 := by
  decide

/-- No octet of a written path ends it. -/
theorem Escaped.notMem {bs written : List UInt8} (h : Escaped bs written) :
    0x3F ∉ written ∧ 0x23 ∉ written := by
  induction h with
  | nil => exact ⟨List.not_mem_nil, List.not_mem_nil⟩
  | @plain b _ _ hplain _ ih =>
    unfold isPlain at hplain
    simp only [Bool.and_eq_true, bne_iff_ne] at hplain
    simp [ih, Ne.symm hplain.1.2, Ne.symm hplain.2]
  | @escape b _ _ upper upper' _ ih =>
    have hb := b.toNat_lt
    have hhigh := hexDigit_ne upper ⟨b.toNat / 16, by omega⟩
    have hlow := hexDigit_ne upper' ⟨b.toNat % 16, by omega⟩
    simp [ih, Ne.symm hhigh.1, Ne.symm hhigh.2, Ne.symm hlow.1, Ne.symm hlow.2]

/-- The raw path of a target is all that stands before its query. -/
theorem rawPath?_of_escaped {bs : List UInt8} {raw query : List Char}
    (h : Escaped bs (Utf8.encode raw)) (hslash : raw.head? = some '/')
    (hquery : ∀ c ∈ query.head?, c = '?') : rawPath? (raw ++ query) = some raw := by
  have hmem : ∀ c ∈ raw, ∀ b ∈ String.utf8EncodeChar c, b ∈ Utf8.encode raw :=
    fun c hc b hb => List.mem_flatMap.mpr ⟨c, hc, hb⟩
  have hkeeps : ∀ c ∈ raw, (!(c == '?' || c == '#')) = true := by
    intro c hc
    simp only [Bool.not_eq_true', Bool.or_eq_false_iff, beq_eq_false_iff_ne]
    constructor
    · rintro rfl
      exact h.notMem.1 (hmem _ hc _ (by decide))
    · rintro rfl
      exact h.notMem.2 (hmem _ hc _ (by decide))
  have hends : query.takeWhile (fun c => !(c == '?' || c == '#')) = [] := by
    cases query with
    | nil => rfl
    | cons c rest =>
      obtain rfl := hquery c rfl
      rfl
  have htake : (raw ++ query).takeWhile (fun c => !(c == '?' || c == '#')) = raw := by
    rw [List.takeWhile_append_of_pos hkeeps, hends, List.append_nil]
  obtain ⟨rest, rfl⟩ := List.head?_eq_some_iff.mp hslash
  unfold rawPath?
  dsimp only [List.cons_append]
  exact congrArg some htake

end Http

/-! ## Requests -/

namespace Service

open Http Text

/-- A request that does what a dispatch of its method and a given path does. -/
def Reaches (limit : Nat) (fresh : String) (s : Service) (r : Request) (path : String) : Prop :=
  Refines limit fresh s r path (s.registry.dispatch r.method path).answer
    (s.request limit fresh r).1.reply (s.request limit fresh r).2

theorem reaches_of_path {limit : Nat} {fresh : String} {s : Service} {r : Request} {raw : List Char}
    (h : rawPath? r.target.toList = some raw) :
    Reaches limit fresh s r (String.ofList (decodePath raw)) := by
  unfold Reaches
  rw [request_of_path h]
  cases hintime : isInTime limit ((s.registry.dispatch r.method
      (String.ofList (decodePath raw))).answer.response.delay.getD 0) with
  | true => exact refines_inTime fresh r hintime
  | false => exact refines_late fresh r hintime

/-- **Every way of writing a path reaches it.** A target that begins with a slash is a way of
writing a path, and any query after it; the request is then dispatched under that path. If the
target has a path that is no way of writing a text, the request is dispatched under the path as
it was sent. -/
theorem request_path (limit : Nat) (fresh : String) (s : Service) (r : Request) :
    (∀ (path : String) (raw query : List Char), r.target.toList = raw ++ query →
      raw.head? = some '/' → (∀ c ∈ query.head?, c = '?') →
      Escaped (Utf8.encode path.toList) (Utf8.encode raw) → Reaches limit fresh s r path) ∧
    ∀ raw : List Char, rawPath? r.target.toList = some raw →
      (∀ text, Utf8.encode text ≠ percentDecode (Utf8.encode raw)) →
      Reaches limit fresh s r (String.ofList raw) := by
  constructor
  · intro path raw query htarget hslash hquery hescaped
    rw [← decodePath_of_escaped hescaped]
    refine reaches_of_path ?_
    rw [htarget, rawPath?_of_escaped hescaped hslash hquery]
  · intro raw hraw hnone
    have hreaches : Reaches limit fresh s r (String.ofList (decodePath raw)) := reaches_of_path hraw
    rwa [decodePath_of_notText hnone] at hreaches

/-- A path with a letter of two octets, one of which is escaped in either case, an escaped percent
sign before digits, and a query; and a path with an escape that is no text. -/
theorem request_path_escaped :
    Reaches 30 "fresh" {} ⟨"GET", "/%c3%A9%252B+?a=/b", []⟩ "/é%2B+" ∧
      Reaches 30 "fresh" {} ⟨"GET", "/%FF", []⟩ "/%FF" := by
  have hpath : Utf8.encode "/é%2B+".toList = [0x2F, 0xC3, 0xA9, 0x25, 0x32, 0x42, 0x2B] := by
    decide +kernel
  have hraw : Utf8.encode "/%c3%A9%252B+".toList =
      0x2F :: 0x25 :: hexDigit false ((0xC3 : UInt8).toNat / 16) ::
        hexDigit true ((0xC3 : UInt8).toNat % 16) :: 0x25 ::
        hexDigit true ((0xA9 : UInt8).toNat / 16) :: hexDigit true ((0xA9 : UInt8).toNat % 16) ::
        0x25 :: hexDigit true ((0x25 : UInt8).toNat / 16) ::
        hexDigit true ((0x25 : UInt8).toNat % 16) :: [0x32, 0x42, 0x2B] := by
    decide +kernel
  have hescaped : Escaped (Utf8.encode "/é%2B+".toList) (Utf8.encode "/%c3%A9%252B+".toList) := by
    rw [hpath, hraw]
    exact .plain rfl (.escape false true (.escape true true (.escape true true
      (.plain rfl (.plain rfl (.plain rfl .nil))))))
  have hnone := Utf8.decode_eq_none_iff.mp
    (show Utf8.decode (percentDecode (Utf8.encode "/%FF".toList)) = none by decide +kernel)
  exact ⟨(request_path 30 "fresh" {} ⟨"GET", "/%c3%A9%252B+?a=/b", []⟩).1 "/é%2B+"
      "/%c3%A9%252B+".toList "?a=/b".toList (by decide +kernel) (by decide +kernel)
      (fun c hc => (Option.some.inj hc).symm) hescaped,
    (request_path 30 "fresh" {} ⟨"GET", "/%FF", []⟩).2 "/%FF".toList (by decide +kernel) hnone⟩

end Service

end StubServer
