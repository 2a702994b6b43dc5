import VirtNet.Proofs.OrderedMap
import VirtNet.Proofs.Settings.Checks
import VirtNet.Proofs.Settings.References

/-!
# Secrets in settings

Reading settings with references to secrets is reading them with the secrets in their place, except that the
accounts that get a password are never resolved (`ofDocument_substitute`). This is so where references stand
for the values that are looked for, and not within them (`Placed`).
-/

namespace VirtNet.Settings

open Secrets

variable {vault : Vault} {fields : List (Value × Value)} {key : String} {v default : Value}
  {s : Settings}

/-- Whether a value is a text, which may be a reference, or has no references in it. -/
def isDirect (v : Value) : Bool :=
  match v with
  | .text _ => true
  | _ => v.references.isEmpty

theorem isDirect_iff : isDirect v = true ↔ (∃ s, v = .text s) ∨ v.references = [] := by
  cases v <;> simp [isDirect]

/-- The references that settings still have. -/
def references (s : Settings) : List String :=
  [s.networkMode, s.storageClass, s.imageUrl, s.userDataLimit, s.ipamStart, s.ipamEnd,
    s.managementInterface, s.managementGateway].flatMap Value.references ++
  (s.loginPassword :: s.loginUsers).filter refers

/-- Settings with secrets in the place of the accounts that are references. -/
def accountsResolved (vault : Vault) (s : Settings) : Settings :=
  { s with loginUsers := s.loginUsers.map (standFor vault) }

/-- No secret is a reference itself, without the blanks around it. -/
def Final (vault : Vault) : Prop :=
  ∀ reference secret, ask (some vault) reference = .ok secret → refers secret = false

/-- Where references may stand in a document of settings. -/
structure Placed (vault : Vault) (fields : List (Value × Value)) : Prop where
  kept : ∀ key ∈ ["network_mode", "storage_class", "image_url", "user_data_limit"],
    ∀ v ∈ Value.lookup key fields, isDirect v = true
  password : ∀ v ∈ Value.lookup "password" (entriesUnder "login" fields), isDirect v = true
  ipam : ∀ key ∈ ["range_start", "range_end"],
    ∀ v ∈ Value.lookup key (entriesUnder "ipam" fields), isDirect v = true
  management : ∀ key ∈ ["interface", "gateway"],
    ∀ v ∈ Value.lookup key (entriesUnder "management" fields), isDirect v = true
  /-- The accounts are a text or a list of such values; of anything else they are the same with secrets in
  the place of references, and none is a reference. -/
  users : ∀ v ∈ Value.lookup "users" (entriesUnder "login" fields), (∃ s, v.opened = .text s) ∨
    (∃ items, v.opened = .list items ∧ ∀ w ∈ items, isDirect w = true) ∨
    Settings.users (v.substitute vault) = Settings.users v ∧
      ∀ names, Settings.users v = .ok names → ∀ n ∈ names, refers n = false
  /-- A reference in the place of one of these is not one to a blank secret. -/
  filled : ∀ key ∈ ["strict_subnets", "login", "ipam", "management"],
    ∀ v ∈ Value.lookup key fields, (v.substitute vault).truthy = v.truthy

/-! ## Tables -/

/-- The vault of a table gives the secrets in the table. -/
theorem get?_of_ask {table : OrderedMap String} {reference t : String}
    (h : ask (some (.ofTable table)) reference = .ok t) :
    ∃ secret, table.get? reference = some secret ∧ Text.strip secret = t := by
  unfold ask at h
  split at h
  · cases h
  · cases hget : table.get? reference with
    | none =>
      simp only [Vault.ofTable, hget] at h
      cases h
    | some secret =>
      simp only [Vault.ofTable, hget] at h
      exact ⟨secret, rfl, Except.ok.inj h⟩

/-- No secret of a table is a reference if none of its values is, without the blanks around it. -/
theorem final_ofTable {table : OrderedMap String}
    (h : ∀ e ∈ table.entries, refers (Text.strip e.2) = false) : Final (.ofTable table) := by
  intro reference t hask
  obtain ⟨secret, hget, rfl⟩ := get?_of_ask hask
  exact h (reference, secret) (OrderedMap.get?_eq_some_iff.1 hget)

/-! ## Values -/

/-- A value is resolved to the same with secrets in the place of references. -/
theorem resolve_substitute (hfinal : Final vault) (h : isDirect v = true) :
    resolve (some vault) (v.substitute vault) = resolve (some vault) v := by
  rcases isDirect_iff.1 h with ⟨t, rfl⟩ | hnone
  · rw [Value.substitute, standFor]
    cases ht : refers t with
    | false => rfl
    | true =>
      cases hask : ask (some vault) t with
      | error e => rfl
      | ok secret =>
        have hsecret := hfinal t secret hask
        simp [resolve_text, ht, hask, hsecret, Except.map, Except.toOption]
  · rw [Value.substitute_eq_self hnone]

/-- What a value is resolved to has no references. -/
theorem references_of_resolve (hfinal : Final vault) (h : isDirect v = true) {w : Value}
    (hw : resolve (some vault) v = .ok w) : w.references = [] := by
  have htext : ∀ t, resolve (some vault) (.text t) = .ok w → w.references = [] := by
    intro t hw
    rw [resolve_text] at hw
    split at hw
    · obtain ⟨secret, hask, rfl⟩ := Outcome.map_eq_ok.1 hw
      rw [Value.references, hfinal t secret hask]
      rfl
    · next ht =>
      cases hw
      rw [Value.references, if_neg ht]
  rcases isDirect_iff.1 h with ⟨t, rfl⟩ | hnone
  · exact htext t hw
  · rcases resolve_eq_ok hw with rfl | ⟨t, -, rfl, -⟩
    · exact hnone
    · exact htext t hw

theorem text_of_written {t : String} (h : written v = .ok t) : v.toText = t := by
  unfold written Value.toText? at h
  split at h
  · next heq =>
    split at heq
    · cases heq
      exact Except.ok.inj h
    · cases heq
  · cases h

/-- The text of a value that stands for itself stays the same, and that of a text is what the text stands
for. -/
theorem written_substitute (h : isDirect v = true) :
    written (v.substitute vault) = (written v).map (standFor vault) := by
  rcases isDirect_iff.1 h with ⟨t, rfl⟩ | hnone
  · rfl
  · rw [Value.substitute_eq_self hnone, written, Value.toText?]
    split
    · next heq =>
      split at heq
      · cases heq
        have hself : standFor vault v.toText = v.toText := by
          rw [standFor, Value.refers_toText hnone]
          rfl
        exact congrArg Except.ok hself.symm
      · cases heq
    · rfl

/-! ## Fields -/

/-- Looking up a field with a default and substituting can be done in either order. -/
theorem getD_lookup_substitute (hdefault : default.references = []) :
    (Value.lookup key (Value.substituteEntries vault fields)).getD default =
      ((Value.lookup key fields).getD default).substitute vault := by
  rw [Value.lookup_substituteEntries]
  cases Value.lookup key fields with
  | none => exact (Value.substitute_eq_self hdefault).symm
  | some v => rfl

theorem direct_getD (hdefault : default.references = []) (h : ∀ v ∈ Value.lookup key fields, isDirect v = true) :
    isDirect ((Value.lookup key fields).getD default) = true := by
  cases hv : Value.lookup key fields with
  | none => exact isDirect_iff.2 (.inr hdefault)
  | some v => exact h v hv

theorem resolved_substitute (hfinal : Final vault) (hdefault : default.references = [])
    (h : ∀ v ∈ Value.lookup key fields, isDirect v = true) :
    resolved (some vault) key default (Value.substituteEntries vault fields) =
      resolved (some vault) key default fields := by
  rw [resolved, getD_lookup_substitute hdefault, resolve_substitute hfinal (direct_getD hdefault h),
    resolved]

theorem number_substitute (hfinal : Final vault) (hdefault : default.references = [])
    (h : ∀ v ∈ Value.lookup key fields, isDirect v = true) :
    number (some vault) key default (Value.substituteEntries vault fields) =
      number (some vault) key default fields := by
  rw [number, resolved_substitute hfinal hdefault h, number]

/-- Where no blank secret takes the place of a field, it counts as true or false as before. -/
theorem truthy_getD_substitute (hdefault : default.references = [])
    (h : ∀ v ∈ Value.lookup key fields, (v.substitute vault).truthy = v.truthy) :
    ((Value.lookup key (Value.substituteEntries vault fields)).getD default).truthy =
      ((Value.lookup key fields).getD default).truthy := by
  rw [getD_lookup_substitute hdefault]
  cases hv : Value.lookup key fields with
  | none => exact congrArg Value.truthy (Value.substitute_eq_self hdefault)
  | some v => exact h v hv

/-- A part of a document can be taken before or after substituting in it. -/
theorem partFields_substitute
    (h : ∀ v ∈ Value.lookup key fields, (v.substitute vault).truthy = v.truthy) :
    partFields key (Value.substituteEntries vault fields) =
      (partFields key fields).map (Value.substituteEntries vault) := by
  unfold partFields
  dsimp only
  rw [truthy_getD_substitute rfl h, getD_lookup_substitute rfl, Value.opened_substitute]
  generalize (Value.lookup key fields).getD .null = v
  cases v.truthy with
  | false => rfl
  | true => cases v.opened <;> rfl

/-- Texts that are no references stand for themselves. -/
theorem map_standFor {names : List String} (h : ∀ n ∈ names, refers n = false) :
    names.map (standFor vault) = names := by
  refine (List.map_congr_left fun n hn => ?_).trans (List.map_id' names)
  rw [standFor, h n hn]
  rfl

/-- Direct values can be written before or after substituting in them. -/
theorem mapM_written_substitute {items : List Value} (h : ∀ w ∈ items, isDirect w = true) :
    (Value.substituteAll vault items).mapM written =
      (items.mapM written).map (List.map (standFor vault)) := by
  rw [Value.substituteAll_eq_map]
  induction items with
  | nil => rfl
  | cons w rest ih =>
    rw [List.forall_mem_cons] at h
    rw [List.map_cons, List.mapM_cons, List.mapM_cons, written_substitute h.1]
    refine Outcome.bind_eq_map_bind rfl fun name _ => ?_
    exact Outcome.bind_eq_map_bind (ih h.2) fun names _ => rfl

/-- The accounts can be listed before or after substituting in them. -/
theorem users_substitute (h : (∃ s, v.opened = .text s) ∨
    (∃ items, v.opened = .list items ∧ ∀ w ∈ items, isDirect w = true) ∨
    Settings.users (v.substitute vault) = Settings.users v ∧
      ∀ names, Settings.users v = .ok names → ∀ n ∈ names, refers n = false) :
    users (v.substitute vault) = (users v).map (List.map (standFor vault)) := by
  rcases h with ⟨t, ht⟩ | ⟨items, hitems, hdirect⟩ | ⟨hsame, hnames⟩
  · rw [users, users, Value.opened_substitute, ht]
    rfl
  · rw [users, users, Value.opened_substitute, hitems]
    exact mapM_written_substitute hdirect
  · rw [hsame]
    cases hv : users v with
    | error e => rfl
    | ok names => exact congrArg Except.ok (map_standFor (hnames names hv)).symm

/-- The accounts of a document can be listed before or after substituting in it. -/
theorem accounts_substitute (h : Placed vault fields) :
    users ((Value.lookup "users" (Value.substituteEntries vault (entriesUnder "login" fields))).getD
      (.texts ({} : Settings).loginUsers)) =
      (users ((Value.lookup "users" (entriesUnder "login" fields)).getD
        (.texts ({} : Settings).loginUsers))).map (List.map (standFor vault)) := by
  rw [getD_lookup_substitute (by decide)]
  refine users_substitute ?_
  cases hv : Value.lookup "users" (entriesUnder "login" fields) with
  | none =>
    refine .inr (.inl ⟨[.text "root", .text "debian"], rfl, ?_⟩)
    simp only [List.forall_mem_cons]
    exact ⟨rfl, rfl, List.forall_mem_nil _⟩
  | some v => exact h.users v hv

/-! ## Documents -/

/-- Reading a document with secrets in the place of references gives what reading the document gives, with
secrets in the place of the accounts. -/
theorem ofFields_substitute (hfinal : Final vault) (h : Placed vault fields) :
    ofFields (some vault) (Value.substituteEntries vault fields) =
      (ofFields (some vault) fields).map (accountsResolved vault) := by
  have hkept := h.kept
  have hipam := h.ipam
  have hmanagement := h.management
  have hfilled := h.filled
  simp only [List.forall_mem_cons] at hkept hipam hmanagement hfilled
  obtain ⟨hmode, hclass, himage, hlimit, -⟩ := hkept
  obtain ⟨hfirst, hlast, -⟩ := hipam
  obtain ⟨hinterface, hgateway, -⟩ := hmanagement
  obtain ⟨hstrict, hlogin, hparts, hmanaged, -⟩ := hfilled
  unfold ofFields
  -- field by field in the order of the reading: only the accounts come out otherwise
  refine Outcome.bind_eq_map_bind (partFields_substitute hlogin) fun login heq => ?_
  obtain rfl := entriesUnder_of_partFields heq
  refine Outcome.bind_eq_map_bind_of_eq (resolved_substitute hfinal rfl hmode) fun mode _ => ?_
  refine Outcome.bind_eq_map_bind_of_eq (resolved_substitute hfinal rfl hclass) fun storageClass _ => ?_
  refine Outcome.bind_eq_map_bind_of_eq (resolved_substitute hfinal rfl himage) fun image _ => ?_
  refine Outcome.bind_eq_map_bind (accounts_substitute h) fun names _ => ?_
  refine Outcome.bind_eq_map_bind_of_eq (resolved_substitute hfinal (by decide) h.password)
    fun password _ => ?_
  refine Outcome.bind_eq_map_bind_of_eq rfl fun shown _ => ?_
  refine Outcome.bind_eq_map_bind_of_eq (number_substitute hfinal rfl hlimit) fun most _ => ?_
  refine Outcome.bind_eq_map_bind (partFields_substitute hparts) fun ipam heq => ?_
  obtain rfl := entriesUnder_of_partFields heq
  refine Outcome.bind_eq_map_bind_of_eq (number_substitute hfinal rfl hfirst) fun first _ => ?_
  refine Outcome.bind_eq_map_bind_of_eq (number_substitute hfinal rfl hlast) fun last _ => ?_
  refine Outcome.bind_eq_map_bind (partFields_substitute hmanaged) fun management heq => ?_
  obtain rfl := entriesUnder_of_partFields heq
  refine Outcome.bind_eq_map_bind_of_eq (resolved_substitute hfinal (by decide) hinterface)
    fun interface _ => ?_
  refine Outcome.bind_eq_map_bind_of_eq (resolved_substitute hfinal (by decide) hgateway)
    fun gateway _ => ?_
  dsimp only
  rw [truthy_getD_substitute rfl hstrict]
  split <;> rfl

/-- Settings that are read have no references but the accounts that are some. -/
theorem references_of_ofFields (hfinal : Final vault) (h : Placed vault fields)
    (hs : ofFields (some vault) fields = .ok s) : s.references = s.loginUsers.filter refers := by
  have hresolved : ∀ {key default fields w}, default.references = [] →
      (∀ v ∈ Value.lookup key fields, isDirect v = true) →
      resolved (some vault) key default fields = .ok w → w.references = [] :=
    fun hdefault h hw => references_of_resolve hfinal (direct_getD hdefault h) hw
  have hkept := h.kept
  have hmanagement := h.management
  simp only [List.forall_mem_cons] at hkept hmanagement
  obtain ⟨hmode, hclass, himage, -⟩ := hkept
  obtain ⟨hinterface, hgateway, -⟩ := hmanagement
  simp only [ofFields, Outcome.bind_eq_ok] at hs
  obtain ⟨login, hlogin, mode, hm, storageClass, hc, image, hi, names, -, value, hvalue, password, hp,
    most, -, ipam, -, first, -, last, -, management, hpart, interface, hn, gateway, hg, hs⟩ := hs
  obtain rfl := entriesUnder_of_partFields hlogin
  obtain rfl := entriesUnder_of_partFields hpart
  split at hs
  · cases hs
    have hpassword : refers password = false := by
      rw [← text_of_written hp]
      exact Value.refers_toText (hresolved (by decide) h.password hvalue)
    have hint : ∀ n, (Value.int n).references = [] := fun _ => rfl
    simp [references, hint, hresolved rfl hmode hm, hresolved rfl hclass hc, hresolved (by decide) himage hi,
      hresolved (by decide) hinterface hn, hresolved (by decide) hgateway hg, hpassword]
  · cases hs

theorem references_of_ofDocument (hfinal : Final vault) {data : Value} (hdata : data.opened = .dict fields)
    (h : Placed vault fields) (hs : ofDocument (some vault) data = .ok s) :
    s.references = s.loginUsers.filter refers := by
  cases hd : data.truthy with
  | false =>
    rw [ofDocument_of_not_truthy hd] at hs
    cases hs
    decide
  | true =>
    rw [ofDocument_of_truthy hd hdata] at hs
    exact references_of_ofFields hfinal h hs

/-- Accounts that are no references stay the same. -/
theorem accountsResolved_eq_self (h : ∀ n ∈ s.loginUsers, refers n = false) :
    accountsResolved vault s = s := by
  rw [accountsResolved, map_standFor h]

/-- Reading a mapping with secrets in the place of references, wherever references are placed as they should
be, gives what reading the mapping gives, with secrets in the place of the accounts: accounts alone are never
resolved. So the two give the same, and no reference is left, exactly when no account is a reference. -/
theorem ofDocument_substitute (hfinal : Final vault) {data : Value} (hdata : data.opened = .dict fields)
    (h : Placed vault fields) :
    ofDocument (some vault) (data.substitute vault) =
      (ofDocument (some vault) data).map (accountsResolved vault) ∧
    ∀ s, ofDocument (some vault) data = .ok s →
      (ofDocument (some vault) (data.substitute vault) = .ok s ∧ s.references = [] ↔
        ∀ n ∈ s.loginUsers, refers n = false) := by
  have hopened : (data.substitute vault).opened = .dict (Value.substituteEntries vault fields) := by
    rw [Value.opened_substitute, hdata]
    rfl
  have htruthy : (data.substitute vault).truthy = data.truthy := Value.truthy_substitute_of_opened hdata
  have hdefault : ∀ n ∈ ({} : Settings).loginUsers, refers n = false := by decide
  have hsame : ofDocument (some vault) (data.substitute vault) =
      (ofDocument (some vault) data).map (accountsResolved vault) := by
    cases hd : data.truthy with
    | false =>
      rw [ofDocument_of_not_truthy (htruthy.trans hd), ofDocument_of_not_truthy hd]
      exact congrArg Except.ok (accountsResolved_eq_self hdefault).symm
    | true =>
      rw [ofDocument_of_truthy (htruthy.trans hd) hopened, ofDocument_of_truthy hd hdata,
        ofFields_substitute hfinal h]
  refine ⟨hsame, ?_⟩
  intro s hs
  rw [references_of_ofDocument hfinal hdata h hs, List.filter_eq_nil_iff]
  constructor
  · rintro ⟨-, hnone⟩ n hn
    simpa using hnone n hn
  · intro hnone
    refine ⟨?_, fun n hn => ?_⟩
    · rw [hsame, hs]
      exact congrArg Except.ok (accountsResolved_eq_self hnone)
    · rw [hnone n hn]
      exact Bool.false_ne_true

/-- Written settings with references to two secrets. -/
def guarded : List (Value × Value) := [
  (.text "storage_class", .text "op://lab/disk/class"),
  (.text "login", .record [("password", .text "op://lab/login/password")]),
  (.text "ipam", .record [("range_start", .int 20)])]

/-- Written settings with a reference to a third one, as an account. -/
def guardedAccount : List (Value × Value) := [
  (.text "login", .record [("users", .texts ["op://lab/login/name"])])]

/-- The secrets, each of them with the end of its line. -/
def keptSecrets : OrderedMap String := .ofList [("op://lab/disk/class", "fast\n"),
  ("op://lab/login/password", "pass\n"), ("op://lab/login/name", "root\n")]

/-- The two secrets can be put in the place of the references to them. -/
theorem ofDocument_substitute_guarded : ∃ s, ofDocument (some keptSecrets) (.dict guarded) = .ok s ∧
    ofDocument (some keptSecrets) ((Value.dict guarded).substitute keptSecrets) = .ok s ∧ s.references = [] ∧
    s.loginPassword = "pass" := by
  obtain ⟨s, hs, hpassword, husers⟩ : ∃ s, ofDocument (some keptSecrets) (.dict guarded) = .ok s ∧
      s.loginPassword = "pass" ∧ ∀ n ∈ s.loginUsers, refers n = false :=
    Outcome.exists_of_any_toOption (by decide +kernel)
  have hfinal : Final keptSecrets := final_ofTable (by decide +kernel)
  have hnone : Value.lookup "users" (entriesUnder "login" guarded) = none :=
    Option.isNone_iff_eq_none.1 (by decide +kernel)
  have hplaced : Placed keptSecrets guarded := by
    refine ⟨by decide +kernel, by decide +kernel, by decide +kernel, by decide +kernel, ?_,
      by decide +kernel⟩
    intro v hv
    rw [hnone] at hv
    cases hv
  have hopened : (Value.dict guarded).opened = .dict guarded := rfl
  obtain ⟨-, hiff⟩ := ofDocument_substitute hfinal hopened hplaced
  obtain ⟨hsame, hleft⟩ := (hiff s hs).2 husers
  exact ⟨s, hs, hsame, hleft, hpassword⟩

/-- The account is not resolved, though there is the secret. -/
theorem ofDocument_guardedAccount :
    (ofDocument (some keptSecrets) (.dict guardedAccount)).toOption.map loginUsers =
      some ["op://lab/login/name"] ∧
    (ofDocument (some keptSecrets) ((Value.dict guardedAccount).substitute keptSecrets)).toOption.map loginUsers =
      some ["root"] := by
  decide +kernel

end VirtNet.Settings
