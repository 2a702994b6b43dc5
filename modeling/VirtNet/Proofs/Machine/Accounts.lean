import VirtNet.Proofs.Journal
import VirtNet.Proofs.Manifest
import VirtNet.Proofs.Text.Split
import VirtNet.Settings.Document
import VirtNet.UserData

/-!
# The accounts of a machine

User data lists the accounts of a machine, each on a line of its own with a colon before its password, and
nothing in the list is quoted. So the list reads as the accounts of the settings exactly when no account has
a colon or a line feed in it and the password has no line feed (`accounts_full_iff`).
-/

namespace VirtNet.UserData

variable {d : Device} {xs : List Assignment} {settings : Settings} {config : Value} {line : List Char}
  {user password : String}

/-- The text before the first colon and after it. -/
def cut? : List Char → Option (List Char × List Char)
  | [] => none
  | c :: rest =>
    if c = ':' then some ([], rest)
    else (cut? rest).map fun sides => (c :: sides.1, sides.2)

/-- The account of a line, with its password. -/
def account? (line : List Char) : Option (String × String) :=
  (cut? line).map fun sides => (String.ofList sides.1, String.ofList sides.2)

/-- The lines of a text without their line feeds. After the last line feed there is a line only if there is
something in it. -/
def linesOf (text : String) : List (List Char) :=
  let parts := Text.fields '\n' text.toList
  if parts.getLast? = some [] then parts.dropLast else parts

/-- What a list of passwords says line by line. -/
def accounts (list : String) : List (Option (String × String)) := (linesOf list).map account?

/-- The list of passwords in user data. -/
def passwordList? (config : Value) : Option String :=
  (config.at? ["chpasswd", "list"]).bind Value.asText?

/-- An account that can be told from its password, on a line of its own. -/
structure Listable (user password : String) : Prop where
  no_colon : ':' ∉ user.toList
  no_lineFeed : '\n' ∉ user.toList
  password_no_lineFeed : '\n' ∉ password.toList

instance (user password : String) : Decidable (Listable user password) :=
  decidable_of_iff (':' ∉ user.toList ∧ '\n' ∉ user.toList ∧ '\n' ∉ password.toList)
    ⟨fun h => ⟨h.1, h.2.1, h.2.2⟩, fun h => ⟨h.1, h.2, h.3⟩⟩

/-- The line of an account. -/
def accountLine (user password : String) : List Char := user.toList ++ ':' :: password.toList

theorem lineFeed_mem_accountLine :
    '\n' ∈ accountLine user password ↔ '\n' ∈ user.toList ∨ '\n' ∈ password.toList := by
  simp [accountLine]

/-! ## Lines -/

/-- A text is cut at the colon that has none before it. -/
theorem cut?_eq_some {before after : List Char} :
    cut? line = some (before, after) ↔ ':' ∉ before ∧ line = before ++ ':' :: after := by
  induction line generalizing before with
  | nil => simp [cut?]
  | cons c rest ih =>
    rw [cut?]
    split
    · next hc =>
      subst hc
      cases before with
      | nil => simp [eq_comm]
      | cons b before =>
        have hne : ':' ∉ b :: before → ':' ≠ b := List.ne_of_not_mem_cons
        simp +contextual [hne]
    · next hc =>
      cases before with
      | nil => simp [hc]
      | cons b before =>
        simp only [Option.map_eq_some_iff, Prod.exists, Prod.mk.injEq, List.cons_append, List.cons.injEq]
        constructor
        · rintro ⟨_, _, hrest, ⟨rfl, rfl⟩, rfl⟩
          obtain ⟨hcolon, hrest⟩ := ih.1 hrest
          exact ⟨List.not_mem_cons_of_ne_of_not_mem (Ne.symm hc) hcolon, rfl, hrest⟩
        · rintro ⟨hcolon, rfl, hrest⟩
          have hbefore : ':' ∉ before := fun hmem => hcolon (List.mem_cons_of_mem _ hmem)
          exact ⟨before, after, ih.2 ⟨hbefore, hrest⟩, ⟨rfl, rfl⟩, rfl⟩

/-- A line reads as an account exactly when it is the account's line and the account has no colon. -/
theorem account?_eq_some :
    account? line = some (user, password) ↔ ':' ∉ user.toList ∧ line = accountLine user password := by
  rw [account?, Option.map_eq_some_iff]
  constructor
  · rintro ⟨⟨before, after⟩, hcut, hsides⟩
    cases hsides
    rw [accountLine, String.toList_ofList, String.toList_ofList]
    exact cut?_eq_some.1 hcut
  · intro h
    exact ⟨(user.toList, password.toList), cut?_eq_some.2 h, by simp⟩

/-! ## Lists -/

/-- The list has a line for every account, and nothing after the last. -/
theorem linesOf_passwords (users : List String) (password : String) :
    linesOf (String.join (users.map fun user => s!"{user}:{password}\n")) =
      users.flatMap fun user => Text.fields '\n' (accountLine user password) := by
  have htext : ∀ s : String, toString s = s := fun _ => rfl
  have hchars : (String.join (users.map fun user => s!"{user}:{password}\n")).toList =
      (users.map (accountLine · password)).flatMap (· ++ ['\n']) := by
    rw [String.toList_join, List.flatMap_map, List.flatMap_map]
    simp [htext, accountLine]
  rw [linesOf, hchars, Text.fields_flatMap_append_separator, List.flatMap_map]
  simp

/-- A list of passwords reads as the accounts that it was made of exactly when each of them can be told from
its password. -/
theorem accounts_passwords_iff (users : List String) (password : String) :
    accounts (String.join (users.map fun user => s!"{user}:{password}\n")) =
        users.map (fun user => some (user, password)) ↔
      ∀ user ∈ users, Listable user password := by
  rw [accounts, linesOf_passwords]
  constructor
  · intro h user huser
    have hread : some (user, password) ∈ users.map fun user => some (user, password) :=
      List.mem_map_of_mem huser
    rw [← h] at hread
    obtain ⟨line, hline, haccount⟩ := List.mem_map.1 hread
    obtain ⟨owner, -, hfield⟩ := List.mem_flatMap.1 hline
    obtain ⟨hcolon, rfl⟩ := account?_eq_some.1 haccount
    -- the line is one of the list's, so there is no line feed in it
    have hfeed := Text.not_mem_of_mem_fields hfield
    rw [lineFeed_mem_accountLine, not_or] at hfeed
    exact ⟨hcolon, hfeed.1, hfeed.2⟩
  · intro h
    rw [List.map_flatMap, List.map_eq_flatMap]
    refine List.flatMap_congr fun user huser => ?_
    obtain ⟨hcolon, hfeed, hpassword⟩ := h user huser
    have hline : '\n' ∉ accountLine user password :=
      lineFeed_mem_accountLine.not.2 (not_or.2 ⟨hfeed, hpassword⟩)
    rw [Text.fields_of_not_mem hline, List.map_singleton, account?_eq_some.2 ⟨hcolon, rfl⟩]

/-- In its full form, user data lists the accounts of the settings. -/
theorem passwordList?_full (h : full d xs settings = .ok config) : passwordList? config =
    some (String.join (settings.loginUsers.map fun user => s!"{user}:{settings.loginPassword}\n")) := by
  unfold full at h
  split at h
  all_goals
    simp only [Outcome.bind_eq_ok] at h
    obtain ⟨_, -, _, hnetwork, hconfig⟩ := h
    cases hnetwork
    cases hconfig
    rfl

/-- In its full form, user data sets exactly the accounts of the settings, in order and each with the
password of the settings, exactly when no account has a colon or a line feed in it and, if there are
accounts, the password has no line feed. -/
theorem accounts_full_iff (h : full d xs settings = .ok config) :
    ∃ list, passwordList? config = some list ∧
      (accounts list = settings.loginUsers.map (fun user => some (user, settings.loginPassword)) ↔
        ∀ user ∈ settings.loginUsers, Listable user settings.loginPassword) :=
  ⟨_, passwordList?_full h, accounts_passwords_iff settings.loginUsers settings.loginPassword⟩

/-- A host that nothing more is known of. -/
def plainHost : Device :=
  { id := "host", type := .vm, cpu := none, memory := none, storage := none, ip := none,
    interfaceIps := .empty }

/-- A colon in the password does no harm. -/
theorem accounts_full_colonInPassword : ∃ config list,
    full plainHost [] { loginPassword := "s3:cret" } = .ok config ∧ passwordList? config = some list ∧
      accounts list = [some ("root", "s3:cret"), some ("debian", "s3:cret")] := by
  obtain ⟨config, hconfig⟩ : ∃ config, full plainHost [] { loginPassword := "s3:cret" } = .ok config :=
    ⟨_, rfl⟩
  obtain ⟨list, hlist, hiff⟩ := accounts_full_iff hconfig
  have hlistable : ∀ user ∈ ["root", "debian"], Listable user "s3:cret" := by decide
  exact ⟨config, list, hconfig, hlist, hiff.2 hlistable⟩

/-- A document of settings with an account that has a colon in it. -/
def accountWithColon : Value :=
  .record [("login", .record [("users", .texts ["ops:admin"]), ("password", .text "s3cret")])]

/-- Its settings are accepted, and what is set is the password of another account. -/
theorem accounts_accountWithColon : ∃ settings config list,
    Settings.ofDocument none accountWithColon = .ok settings ∧ full plainHost [] settings = .ok config ∧
      passwordList? config = some list ∧ accounts list = [some ("ops", "admin:s3cret")] ∧
      settings.loginUsers.map (fun user => some (user, settings.loginPassword)) =
        [some ("ops:admin", "s3cret")] := by
  obtain ⟨settings, hsettings, hconfig, hlogin⟩ := Outcome.exists_of_any_toOption
    (x := Settings.ofDocument none accountWithColon)
    (P := fun settings =>
      (full plainHost [] settings).toOption.any (fun config =>
        (passwordList? config).map accounts = some [some ("ops", "admin:s3cret")]) = true ∧
      settings.loginUsers.map (fun user => some (user, settings.loginPassword)) =
        [some ("ops:admin", "s3cret")]) (by decide +kernel)
  obtain ⟨config, hfull, hlist⟩ := Outcome.exists_of_any_toOption hconfig
  obtain ⟨list, hlist, haccounts⟩ := Option.map_eq_some_iff.1 hlist
  exact ⟨settings, config, list, hsettings, hfull, hlist, haccounts, hlogin⟩

end VirtNet.UserData
