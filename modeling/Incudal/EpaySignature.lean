/-
# `EpaySignature` — what a signature of the payment gateway covers

Pay links and callbacks are signed over one text: the fields in the order of
their keys, `key=value` with `&` between them, nothing escaped.  With a shared
key the panel's own signatures would verify as the gateway's.

The text does not determine the fields in general (`one_content_two_dicts`): a
value may hold `&` and a key `=`.  Where none does, it does; and the signature of
a pay link is accepted for a successful trade only if one of the texts that the
link is made from holds `&trade_status=TRADE_SUCCESS` itself
(`epay_signatures_separate`).
-/
import Incudal.Lib.Delimited
import Incudal.Lib.InsertionMap
import Incudal.Lib.Utf8
import Mathlib.Data.List.Sort

namespace Incudal

/-! ## Dictionaries and their content -/

/-- A value of `Record<string, unknown>`, with the text that a template makes of it. -/
inductive ParamValue
  | text (s : String)
  | array (shown : String)
  /-- a number, a boolean or an object -/
  | other (shown : String) (truthy : Bool)
  /-- `null` or `undefined` -/
  | absent
deriving DecidableEq, Repr

def ParamValue.shown : ParamValue → String
  | .text s => s
  | .array s => s
  | .other s _ => s
  | .absent => "undefined"

def ParamValue.truthy : ParamValue → Bool
  | .text s => s ≠ ""
  | .array _ => true
  | .other _ truthy => truthy
  | .absent => false

/-- A JavaScript object: each key once. -/
structure ParamDict where
  entries : List (String × ParamValue) := []
  nodup : (entries.map Prod.fst).Nodup := by decide

namespace ParamDict

variable (params : ParamDict)

/-- `params[k]` -/
def get (k : String) : Option ParamValue := InsertionMap.get k params.entries

/-- `params[k] = v` -/
def set (k : String) (v : ParamValue) : ParamDict where
  entries := InsertionMap.set k v params.entries
  nodup := InsertionMap.nodup_set params.nodup

/-- Only texts. -/
def Texts : Prop := ∀ e ∈ params.entries, e.2 = .text e.2.shown

instance : DecidablePred Texts := fun params =>
  inferInstanceAs (Decidable (∀ e ∈ params.entries, e.2 = .text e.2.shown))

end ParamDict

/-- The code units of a string, by which keys are sorted. -/
def codeUnits (s : String) : List ℕ :=
  s.toList.flatMap fun c =>
    if c.toNat < 0x10000 then [c.toNat]
    else [0xD800 + (c.toNat - 0x10000) / 0x400, 0xDC00 + (c.toNat - 0x10000) % 0x400]

/-- The first code unit that differs decides. -/
def unitsLE : List ℕ → List ℕ → Bool
  | [], _ => true
  | _ :: _, [] => false
  | a :: as, b :: bs => a < b || (a == b && unitsLE as bs)

/-- `Object.keys(params).sort()`, with the values. -/
def ParamDict.sorted (params : ParamDict) : List (String × ParamValue) :=
  params.entries.insertionSort fun a b => unitsLE (codeUnits a.1) (codeUnits b.1)

/-- The part of the content that is an entry. -/
def contentField (e : String × ParamValue) : List Char × List Char :=
  (e.1.toList, e.2.shown.toList)

/-- The content of the entries that count. -/
def signContent (counts : String × ParamValue → Bool) (params : ParamDict) : List Char :=
  ['&'].intercalate
    (((params.sorted.filter counts).map contentField).map (Delimited.field '='))

/-- An entry that the first version signs. -/
def signedByV1 (e : String × ParamValue) : Bool :=
  e.2 ≠ .absent && e.2 ≠ .text "" && e.1 ≠ "sign" && e.1 ≠ "sign_type"

/-- The second version leaves arrays out as well. -/
def signedByV2 (e : String × ParamValue) : Bool :=
  match e.2 with
  | .array _ => false
  | _ => signedByV1 e

def EpayCoreV1.getSignContent : ParamDict → List Char := signContent signedByV1

def EpayCoreV2.getSignContent : ParamDict → List Char := signContent signedByV2

/-! ## The client with a shared key -/

structure VerifyResult where
  valid : Bool
  tradeSuccess : Bool
  error : Option String := none
deriving DecidableEq, Repr

structure PayParams where
  type : String
  out_trade_no : String
  name : String
  money : String
  notify_url : String
  return_url : String
deriving DecidableEq, Repr

/-- `Object.entries(params)` -/
def PayParams.entries (p : PayParams) : List (String × String) :=
  [("type", p.type), ("out_trade_no", p.out_trade_no), ("name", p.name), ("money", p.money),
    ("notify_url", p.notify_url), ("return_url", p.return_url)]

structure EpayCoreV1 where
  apiurl : String
  pid : String
  key : String
deriving DecidableEq, Repr

namespace EpayCoreV1

/- The digest of a text, in hexadecimal. -/
variable (md5 : List Char → String) (client : EpayCoreV1)

/-- The text whose digest is the signature. -/
def signText (params : ParamDict) : List Char := getSignContent params ++ client.key.toList

def getSign (params : ParamDict) : String := md5 (client.signText params)

/-- What `buildRequestParam` signs. -/
def requestFields (params : PayParams) : ParamDict :=
  let result := (params.entries.filter fun e => e.2 ≠ "").foldl
    (fun (result : ParamDict) e => result.set e.1 (.text e.2)) { }
  result.set "pid" (.text client.pid)

def buildRequestParam (params : PayParams) : ParamDict :=
  let result := client.requestFields params
  (result.set "sign" (.text (client.getSign md5 result))).set "sign_type" (.text "MD5")

def verifyWithStatus (data : ParamDict) : VerifyResult :=
  let given := (data.get "sign").getD .absent
  if !given.truthy then { valid := false, tradeSuccess := false, error := some "缺少签名参数" }
  else if .text (client.getSign md5 data) ≠ given then
    { valid := false, tradeSuccess := false, error := some "签名验证失败" }
  else
    let status := (data.get "trade_status").getD .absent
    if status ≠ .text "TRADE_SUCCESS" then
      let shown := if status.truthy then status.shown else "未知状态"
      { valid := true, tradeSuccess := false, error := some ("交易未成功: " ++ shown) }
    else { valid := true, tradeSuccess := true }

end EpayCoreV1

/-! ## The pay links of the panel -/

def isUnreserved (c : Char) : Bool :=
  c.isAlphanum || c ∈ "-_.!~*'()".toList

def upperHexDigit (n : ℕ) : Char := "0123456789ABCDEF".toList.getD n '0'

/-- A byte as `%XX`. -/
def percentByte (b : UInt8) : List Char :=
  ['%', upperHexDigit (b.toNat / 16), upperHexDigit (b.toNat % 16)]

def encodeURIComponent (s : String) : List Char :=
  s.toList.flatMap fun c =>
    if isUnreserved c then [c] else (String.utf8EncodeChar c).flatMap percentByte

/-- `amount.toFixed(2)` of an amount in hundredths. -/
def toFixed2 (cents : ℕ) : List Char :=
  Nat.toDigits 10 (cents / 100) ++
    '.' :: (Nat.toDigits 10 (cents % 100 / 10) ++ Nat.toDigits 10 (cents % 10))

/-- The base addresses that the environment gives. -/
structure RechargeBases where
  frontendUrl : String
  callbackBaseUrl : String
deriving DecidableEq, Repr

/-- The order and the provider that a link is made for. -/
structure RechargeOrder where
  providerId : ℕ
  orderNo : String
  amount : ℕ
  paymentMethod : Option String
deriving DecidableEq, Repr

section Links

variable (bases : RechargeBases) (order : RechargeOrder)

def notifyUrl : List Char :=
  bases.callbackBaseUrl.toList ++ "/api/recharge/callback/".toList ++
    Nat.toDigits 10 order.providerId

def successUrl : List Char :=
  bases.frontendUrl.toList ++ "/wallet?recharge=success&out_trade_no=".toList ++
    encodeURIComponent order.orderNo

/-- What `createRechargePayUrl` asks a link for. -/
def rechargePayParams : PayParams where
  type := match order.paymentMethod with
    | none => "alipay"
    | some method => if method = "" then "alipay" else method
  out_trade_no := order.orderNo
  name := "账户充值"
  money := String.ofList (toFixed2 order.amount)
  notify_url := String.ofList (notifyUrl bases order)
  return_url := String.ofList (successUrl bases order)

/-- The signature on the pay link of an order. -/
def issuedSign (md5 : List Char → String) (client : EpayCoreV1) : Option ParamValue :=
  (client.buildRequestParam md5 (rechargePayParams bases order)).get "sign"

/-- The texts that a link is made from. -/
def linkSources (client : EpayCoreV1) : List String :=
  [order.paymentMethod.getD "", order.orderNo, client.pid, bases.callbackBaseUrl, bases.frontendUrl]

end Links

/-! ## Agreement -/

namespace ParamDict

variable (p q : ParamDict)

/-- No counted key holds `=` and no counted value holds `&`. -/
def Plain : Prop := ∀ e ∈ p.entries, signedByV1 e → '=' ∉ e.1.toList ∧ '&' ∉ e.2.shown.toList

instance : DecidablePred Plain := fun p => inferInstanceAs
  (Decidable (∀ e ∈ p.entries, signedByV1 e → '=' ∉ e.1.toList ∧ '&' ∉ e.2.shown.toList))

/-- The same fields, `sign`, `sign_type` and empty values aside. -/
def Agree : Prop :=
  ∀ k v, k ≠ "sign" → k ≠ "sign_type" → v ≠ "" →
    (p.get k = some (.text v) ↔ q.get k = some (.text v))

end ParamDict

/-- The field of a successful trade, after another field. -/
def successField : List Char := "&trade_status=TRADE_SUCCESS".toList

section Content

variable {p q : ParamDict} {counts : String × ParamValue → Bool} {e : String × ParamValue}
  {k : String} {v : ParamValue}

theorem ParamDict.mem_entries_iff : (k, v) ∈ p.entries ↔ p.get k = some v :=
  InsertionMap.mem_iff_get p.nodup

theorem ParamDict.get_set {k' : String} :
    (p.set k v).get k' = if k' = k then some v else p.get k' :=
  InsertionMap.get_set

theorem mem_counted : e ∈ p.sorted.filter counts ↔ e ∈ p.entries ∧ counts e = true := by
  rw [List.mem_filter, ParamDict.sorted, List.mem_insertionSort]

theorem contentField_inj {e e' : String × ParamValue} (h : contentField e = contentField e') :
    e.1 = e'.1 ∧ e.2.shown = e'.2.shown :=
  ⟨String.toList_inj.mp (Prod.mk.inj h).1, String.toList_inj.mp (Prod.mk.inj h).2⟩

theorem signedByV1_text {s : String} (hk : k ≠ "sign") (hk' : k ≠ "sign_type") (hs : s ≠ "") :
    signedByV1 (k, .text s) = true := by
  simp [signedByV1, hk, hk', hs]

theorem signedByV2_text (h : e.2 = .text e.2.shown) : signedByV2 e = signedByV1 e := by
  rw [signedByV2, h]

/-- Equal contents are the contents of equal lists of entries. -/
theorem counted_eq (hcounts : ∀ e, e.2 = .text e.2.shown → counts e = signedByV1 e)
    (hp : p.Texts) (hq : q.Texts) (hplain : p.Plain) (hplain' : q.Plain)
    (h : signContent counts p = signContent counts q) :
    (p.sorted.filter counts).map contentField = (q.sorted.filter counts).map contentField := by
  have hfields : ∀ {r : ParamDict}, r.Texts → r.Plain →
      ∀ f ∈ (r.sorted.filter counts).map contentField, '=' ∉ f.1 ∧ '&' ∉ f.2 := by
    intro r hr hplain f hf
    obtain ⟨e, he, rfl⟩ := List.mem_map.mp hf
    obtain ⟨hmem, hcount⟩ := mem_counted.mp he
    exact hplain e hmem (hcounts e (hr e hmem) ▸ hcount)
  exact Delimited.fields_inj (hfields hp hplain) (hfields hq hplain') h

theorem get_of_counted_eq (hcounts : ∀ e, e.2 = .text e.2.shown → counts e = signedByV1 e)
    (hq : q.Texts)
    (h : (p.sorted.filter counts).map contentField = (q.sorted.filter counts).map contentField)
    {s : String} (hk : k ≠ "sign") (hk' : k ≠ "sign_type") (hs : s ≠ "")
    (hget : p.get k = some (.text s)) : q.get k = some (.text s) := by
  have hcount : counts (k, .text s) = true := by rw [hcounts _ rfl, signedByV1_text hk hk' hs]
  have hmem : (k, .text s) ∈ p.sorted.filter counts :=
    mem_counted.mpr ⟨ParamDict.mem_entries_iff.mpr hget, hcount⟩
  obtain ⟨⟨k', v'⟩, he, hfield⟩ := List.mem_map.mp (h ▸ List.mem_map_of_mem hmem)
  obtain ⟨hmem', -⟩ := mem_counted.mp he
  obtain ⟨rfl, hshown⟩ := contentField_inj hfield
  have hv' : v' = .text s := (hq _ hmem').trans (congrArg ParamValue.text hshown)
  exact ParamDict.mem_entries_iff.mp (hv' ▸ hmem')

/-- Plain fields are read off the content. -/
theorem agree_of_content (hcounts : ∀ e, e.2 = .text e.2.shown → counts e = signedByV1 e)
    (hp : p.Texts) (hq : q.Texts) (hplain : p.Plain) (hplain' : q.Plain)
    (h : signContent counts p = signContent counts q) : p.Agree q := by
  have heq := counted_eq hcounts hp hq hplain hplain' h
  intro k v hk hk' hv
  exact ⟨get_of_counted_eq hcounts hq heq hk hk' hv,
    get_of_counted_eq hcounts hp heq.symm hk hk' hv⟩

end Content

/-! ## What a link can be taken for -/

section Links

variable {md5 : List Char → String} {client : EpayCoreV1} {data : ParamDict} {params : PayParams}
  {bases : RechargeBases} {order : RechargeOrder} {e : String × ParamValue}

theorem verifyWithStatus_ok (h : (client.verifyWithStatus md5 data).tradeSuccess = true) :
    data.get "sign" = some (.text (client.getSign md5 data)) ∧
      data.get "trade_status" = some (.text "TRADE_SUCCESS") := by
  have hget : ∀ {o : Option ParamValue} {s : String}, .text s = o.getD .absent →
      o = some (.text s) := by
    intro o s ho
    cases o with
    | none => cases ho
    | some v => exact congrArg some ho.symm
  simp only [EpayCoreV1.verifyWithStatus] at h
  split at h
  · cases h
  · split at h
    · cases h
    · rename_i hsign
      split at h
      · cases h
      · rename_i hstatus
        exact ⟨hget (not_not.mp hsign), hget (not_not.mp hstatus).symm⟩

theorem mem_foldl_set_text {fields : List (String × String)} {result : ParamDict}
    (h : e ∈ (fields.foldl (fun (result : ParamDict) e => result.set e.1 (.text e.2)) result).entries) :
    e ∈ result.entries ∨ ∃ f ∈ fields, e = (f.1, .text f.2) := by
  induction fields generalizing result with
  | nil => exact .inl h
  | cons f fields ih =>
      rcases ih h with h | ⟨g, hg, rfl⟩
      · refine (InsertionMap.mem_of_mem_set h).imp_right fun h => ?_
        exact ⟨f, List.mem_cons_self, h⟩
      · exact .inr ⟨g, List.mem_cons_of_mem _ hg, rfl⟩

/-- The fields of a request are the link's parameters and the merchant's id. -/
theorem mem_requestFields (h : e ∈ (client.requestFields params).entries) :
    ∃ f ∈ ("pid", client.pid) :: params.entries, e = (f.1, .text f.2) := by
  rcases InsertionMap.mem_of_mem_set h with h | rfl
  · obtain ⟨f, hf, rfl⟩ := (mem_foldl_set_text h).resolve_left List.not_mem_nil
    exact ⟨f, List.mem_cons_of_mem _ (List.mem_of_mem_filter hf), rfl⟩
  · exact ⟨_, List.mem_cons_self, rfl⟩

theorem issuedSign_eq : issuedSign bases order md5 client =
    some (.text (client.getSign md5 (client.requestFields (rechargePayParams bases order)))) := by
  rw [issuedSign, EpayCoreV1.buildRequestParam, ParamDict.get_set, if_neg (by decide),
    ParamDict.get_set, if_pos rfl]

/-- The field of a successful trade, as it stands in a content. -/
theorem successField_eq : successField =
    '&' :: Delimited.field '=' ("trade_status".toList, "TRADE_SUCCESS".toList) := by decide

/-- Where the contents agree, a value of the link holds the field. -/
theorem successField_of_content
    (hstatus : data.get "trade_status" = some (.text "TRADE_SUCCESS"))
    (h : EpayCoreV1.getSignContent data =
      EpayCoreV1.getSignContent (client.requestFields params)) :
    ∃ f ∈ ("pid", client.pid) :: params.entries, successField <:+: f.2.toList := by
  have hfield : Delimited.field '=' ("trade_status".toList, "TRADE_SUCCESS".toList) ∈
      ((data.sorted.filter signedByV1).map contentField).map (Delimited.field '=') := by
    refine List.mem_map_of_mem (List.mem_map.mpr ⟨("trade_status", .text "TRADE_SUCCESS"), ?_, rfl⟩)
    exact mem_counted.mpr ⟨ParamDict.mem_entries_iff.mpr hstatus, by decide⟩
  have hpart : successField <:+: '&' :: EpayCoreV1.getSignContent (client.requestFields params) := by
    rw [successField_eq, ← h]
    exact Delimited.infix_intercalate hfield
  rw [successField_eq] at hpart
  obtain ⟨part, hpart, hstands⟩ :=
    Delimited.cons_infix_intercalate (by decide) (by decide) hpart
  obtain ⟨f', hf', rfl⟩ := List.mem_map.mp hpart
  obtain ⟨e, he, rfl⟩ := List.mem_map.mp hf'
  obtain ⟨⟨k, s⟩, hf, rfl⟩ := mem_requestFields (mem_counted.mp he).1
  have hnames : ∀ f ∈ ("pid", client.pid) :: params.entries,
      f.1.toList ≠ "trade_status".toList ∧ '&' ∉ f.1.toList ++ ['='] ∧ '=' ∉ f.1.toList := by
    simp only [PayParams.entries, List.forall_mem_cons]
    decide
  obtain ⟨hname, hamp, heq⟩ := hnames _ hf
  refine ⟨_, hf, ?_⟩
  rcases hstands with ⟨rest, hrest⟩ | hstands
  · rw [Delimited.field, List.append_assoc, List.cons_append] at hrest
    exact absurd ((Delimited.append_cons_inj (by decide) heq).mp hrest).1.symm hname
  · rw [successField_eq]
    refine Delimited.infix_of_cons_infix_append hamp ?_
    rw [← List.append_cons]
    exact hstands

theorem not_successField {t : List Char} (h : '&' ∉ t) : ¬successField <:+: t := by
  intro hpart
  have hamp : '&' ∈ successField := by decide
  exact h (hpart.subset hamp)

theorem not_mem_toFixed2 (cents : ℕ) : '&' ∉ toFixed2 cents := by
  have hdigits := @Delimited.not_mem_toDigits '&' (by decide)
  simp [toFixed2, hdigits]

theorem upperHexDigit_ne (n : ℕ) : upperHexDigit n ≠ '&' := by
  intro h
  rw [upperHexDigit, List.getD_eq_getElem?_getD] at h
  cases hget : "0123456789ABCDEF".toList[n]? with
  | none =>
      rw [hget] at h
      exact absurd h (by decide)
  | some c =>
      rw [hget, Option.getD_some] at h
      exact absurd (h ▸ List.mem_of_getElem? hget) (by decide)

theorem not_mem_percentByte (b : UInt8) : '&' ∉ percentByte b := by
  simp [percentByte, (upperHexDigit_ne _).symm]

theorem not_mem_encodeURIComponent (s : String) : '&' ∉ encodeURIComponent s := by
  rw [encodeURIComponent, List.mem_flatMap]
  rintro ⟨c, -, hc⟩
  split at hc
  · rename_i hunreserved
    obtain rfl := List.mem_singleton.mp hc
    exact absurd hunreserved (by decide)
  · obtain ⟨b, -, hb⟩ := List.mem_flatMap.mp hc
    exact not_mem_percentByte b hb

/-- In a base address and what is put after it. -/
theorem successField_of_base {base : String} {path : List Char}
    (h : successField <:+: base.toList ++ '/' :: path) (hpath : ¬successField <:+: path) :
    successField <:+: base.toList :=
  (Delimited.infix_append_cons (by decide) h).resolve_right hpath

theorem successField_of_notifyUrl (h : successField <:+: notifyUrl bases order) :
    successField <:+: bases.callbackBaseUrl.toList := by
  rw [notifyUrl, List.append_assoc] at h
  refine successField_of_base h (not_successField ?_)
  refine List.mem_append.not.mpr (not_or.mpr ⟨?_, Delimited.not_mem_toDigits (by decide) _⟩)
  decide

theorem successField_of_successUrl (h : successField <:+: successUrl bases order) :
    successField <:+: bases.frontendUrl.toList := by
  rw [successUrl, List.append_assoc] at h
  refine successField_of_base h fun h => ?_
  -- the one `&` of the path stands before the order's number
  have hquery : successField <:+:
      '&' :: ("out_trade_no=".toList ++ encodeURIComponent order.orderNo) :=
    Delimited.infix_of_cons_infix_append (a := "wallet?recharge=success".toList) (by decide) h
  rcases List.infix_cons_iff.mp hquery with h | h
  · exact absurd (List.cons_prefix_cons.mp (List.cons_prefix_cons.mp h).2).1 (by decide)
  · refine not_successField ?_ h
    exact List.mem_append.not.mpr (not_or.mpr ⟨by decide, not_mem_encodeURIComponent _⟩)

/-- The texts that the panel adds to a link hold no such field. -/
theorem mem_linkSources {f : String × String}
    (hf : f ∈ ("pid", client.pid) :: (rechargePayParams bases order).entries)
    (h : successField <:+: f.2.toList) :
    ∃ source ∈ linkSources bases order client, successField <:+: source.toList := by
  simp only [PayParams.entries, rechargePayParams, List.mem_cons, List.not_mem_nil, or_false] at hf
  simp only [linkSources, List.exists_mem_cons_iff]
  rcases hf with rfl | rfl | rfl | rfl | rfl | rfl | rfl
  · exact .inr (.inr (.inl h))
  · have halipay : ¬successField <:+: "alipay".toList := not_successField (by decide)
    cases hmethod : order.paymentMethod with
    | none =>
        rw [hmethod] at h
        exact absurd h halipay
    | some method =>
        rw [hmethod] at h
        refine .inl ?_
        dsimp only at h
        split at h
        · exact absurd h halipay
        · exact h
  · exact .inr (.inl h)
  · exact absurd h (not_successField (by decide))
  · rw [String.toList_ofList] at h
    exact absurd h (not_successField (not_mem_toFixed2 _))
  · rw [String.toList_ofList] at h
    exact .inr (.inr (.inr (.inl (successField_of_notifyUrl h))))
  · rw [String.toList_ofList] at h
    exact .inr (.inr (.inr (.inr (.inl (successField_of_successUrl h)))))

end Links

/-! ## The theorem -/

/-- The digest tells the two texts apart. -/
def NoCollision (md5 : List Char → String) (text text' : List Char) : Prop :=
  md5 text = md5 text' → text = text'

/-- Equal contents of plain fields are the contents of the same fields; and a callback
that carries the signature of a pay link passes for a successful trade only if one of the
texts that the link is made from holds the field of a successful trade itself. -/
theorem epay_signatures_separate (md5 : List Char → String) (client : EpayCoreV1)
    (bases : RechargeBases) (order : RechargeOrder) (p q data : ParamDict)
    (hp : p.Texts ∧ p.Plain) (hq : q.Texts ∧ q.Plain)
    (hmd5 : NoCollision md5 (client.signText data)
      (client.signText (client.requestFields (rechargePayParams bases order)))) :
    (EpayCoreV1.getSignContent p = EpayCoreV1.getSignContent q → p.Agree q) ∧
      (EpayCoreV2.getSignContent p = EpayCoreV2.getSignContent q → p.Agree q) ∧
      (data.get "sign" = issuedSign bases order md5 client →
        (client.verifyWithStatus md5 data).tradeSuccess = true →
        ∃ source ∈ linkSources bases order client, successField <:+: source.toList) := by
  refine ⟨fun h => ?_, fun h => ?_, fun hsign haccepted => ?_⟩
  · exact agree_of_content (fun _ _ => rfl) hp.1 hq.1 hp.2 hq.2 h
  · exact agree_of_content (fun _ => signedByV2_text) hp.1 hq.1 hp.2 hq.2 h
  · obtain ⟨hverified, hstatus⟩ := verifyWithStatus_ok haccepted
    rw [hverified, issuedSign_eq, Option.some.injEq, ParamValue.text.injEq] at hsign
    have hcontent := List.append_cancel_right (hmd5 hsign)
    obtain ⟨f, hf, hpart⟩ := successField_of_content hstatus hcontent
    exact mem_linkSources hf hpart

/-! ## A link that passes for a callback -/

def sampleClient : EpayCoreV1 := { apiurl := "https://pay.example/", pid := "7", key := "k0" }

/-- A base address that ends in fields of its own. -/
def queryBases : RechargeBases where
  frontendUrl := "https://p.cc?&trade_status=TRADE_SUCCESS&u="
  callbackBaseUrl := "https://p.cc"

def sampleOrder : RechargeOrder where
  providerId := 1
  orderNo := "R1"
  amount := 100000
  paymentMethod := none

def linkText : List Char :=
  ['&'].intercalate (["money=1000.00", "name=账户充值", "notify_url=https://p.cc/api/recharge/callback/1",
    "out_trade_no=R1", "pid=7", "return_url=https://p.cc?", "trade_status=TRADE_SUCCESS",
    "u=/wallet?recharge=success", "out_trade_no=R1", "type=alipayk0"].map String.toList)

/-- The digest of that text. -/
def linkMd5 (text : List Char) : String :=
  if text = linkText then "4a46a5f540d3521c0b486bd5d0497711" else ""

/-- The fields of the link, read off its content at the ampersands. -/
def linkCallback : ParamDict where
  entries := [("money", .text "1000.00"), ("name", .text "账户充值"),
    ("notify_url", .text "https://p.cc/api/recharge/callback/1"),
    ("out_trade_no", .text "R1"), ("pid", .text "7"),
    ("return_url", .text "https://p.cc?"),
    ("sign", .text "4a46a5f540d3521c0b486bd5d0497711"), ("sign_type", .text "MD5"),
    ("trade_status", .text "TRADE_SUCCESS"),
    ("u", .text "/wallet?recharge=success&out_trade_no=R1&type=alipay")]
  nodup := by decide +kernel

theorem signText_linkCallback : sampleClient.signText linkCallback = linkText := by
  decide +kernel

theorem signText_link :
    sampleClient.signText (sampleClient.requestFields (rechargePayParams queryBases sampleOrder)) =
      linkText := by
  decide +kernel

theorem issuedSign_link : issuedSign queryBases sampleOrder linkMd5 sampleClient =
    linkCallback.get "sign" := by
  rw [issuedSign_eq, EpayCoreV1.getSign, signText_link, linkMd5, if_pos rfl]
  decide +kernel

theorem verifyWithStatus_link :
    (sampleClient.verifyWithStatus linkMd5 linkCallback).tradeSuccess = true := by
  have hsign : sampleClient.getSign linkMd5 linkCallback = "4a46a5f540d3521c0b486bd5d0497711" := by
    rw [EpayCoreV1.getSign, signText_linkCallback, linkMd5, if_pos rfl]
  simp only [EpayCoreV1.verifyWithStatus, hsign]
  decide +kernel

def splitFields : ParamDict where
  entries := [("b", .text "2"), ("a", .text "1")]

def signedFields : ParamDict where
  entries := [("a", .text "1"), ("b", .text "2"), ("c", .text ""), ("sign", .text "x")]

/-- Fields in another order, with a signature and an empty value; and the link above. -/
theorem epay_signatures_separate_link :
    splitFields.Agree signedFields ∧
      ∃ source ∈ linkSources queryBases sampleOrder sampleClient,
        successField <:+: source.toList := by
  have h := epay_signatures_separate linkMd5 sampleClient queryBases sampleOrder splitFields
    signedFields linkCallback ⟨by decide, by decide⟩ ⟨by decide, by decide⟩ (by
      rw [NoCollision, signText_link, signText_linkCallback]
      exact fun _ => rfl)
  exact ⟨h.1 (by decide), h.2.2 issuedSign_link.symm verifyWithStatus_link⟩

/-- A field with an ampersand in its value. -/
def joinedFields : ParamDict where
  entries := [("a", .text "1&b=2")]

/-- One content for two dictionaries; and the signature of a link to a base address that
ends in fields of its own is accepted for a successful trade. -/
theorem one_content_two_dicts :
    (∃ p q : ParamDict, p.Texts ∧ q.Texts ∧
      EpayCoreV1.getSignContent p = EpayCoreV1.getSignContent q ∧
      EpayCoreV2.getSignContent p = EpayCoreV2.getSignContent q ∧ ¬p.Agree q) ∧
    ∃ md5 client bases order, ∃ data : ParamDict, data.Texts ∧
      NoCollision md5 (EpayCoreV1.signText client data)
        (client.signText (client.requestFields (rechargePayParams bases order))) ∧
      data.get "sign" = issuedSign bases order md5 client ∧
      (client.verifyWithStatus md5 data).tradeSuccess = true ∧
      ¬data.Agree (client.requestFields (rechargePayParams bases order)) := by
  constructor
  · refine ⟨joinedFields, splitFields, by decide, by decide, by decide, by decide, fun h => ?_⟩
    have := (h "b" "2" (by decide) (by decide) (by decide)).mpr (by decide)
    exact absurd this (by decide)
  · refine ⟨linkMd5, sampleClient, queryBases, sampleOrder, linkCallback, by decide, ?_,
      issuedSign_link.symm, verifyWithStatus_link, fun h => ?_⟩
    · rw [NoCollision, signText_link, signText_linkCallback]
      exact fun _ => rfl
    · have := (h "trade_status" "TRADE_SUCCESS" (by decide) (by decide) (by decide)).mp
        (by decide +kernel)
      exact absurd this (by decide +kernel)

end Incudal
