import SimpleSftpd.User.User
import Mathlib.Data.List.AList

/-! virtual_host.hpp, and what the two managers answer when a session asks them. -/

namespace SimpleSftpd

section

variable {α : Type} {m : AList (fun _ : Str => α)} {k k' : Str} {a a' : α}

lemma lookup_of_insert (h : (m.insert k a).lookup k' = some a') : k' = k ∧ a' = a ∨ m.lookup k' = some a' := by
  by_cases hk : k' = k
  · subst hk
    rw [AList.lookup_insert, Option.some.injEq] at h
    exact .inl ⟨rfl, h.symm⟩
  · rw [AList.lookup_insert_ne hk] at h
    exact .inr h

lemma lookup_of_erase (h : (m.erase k).lookup k' = some a') : k' ≠ k ∧ m.lookup k' = some a' := by
  by_cases hk : k' = k
  · subst hk
    rw [AList.lookup_erase] at h
    cases h
  · rw [AList.lookup_erase_ne hk] at h
    exact ⟨hk, h⟩

end

abbrev UserMap := AList (fun _ : Str => FTPUser)

structure FTPUserManager where
  users_ : UserMap
  user_file_ : Str

def FTPUserManager.getUser (m : FTPUserManager) (username : Str) : Option FTPUser :=
  m.users_.lookup username

structure FTPVirtualHost where
  hostname_ : Str
  root_directory_ : Str
  enabled_ : Bool := true
  user_manager_ : Option FTPUserManager := none
  ssl_cert_file_ : Str := []
  ssl_key_file_ : Str := []
  ssl_ca_file_ : Str := []
  max_sessions_ : Int := 0
  storage_quota_bytes_ : ℕ := 0
  bandwidth_quota_bytes_ : ℕ := 0
  custom_errors_ : AList (fun _ : Str => Str) := ∅

namespace FTPVirtualHost

def getCustomError (h : FTPVirtualHost) (code : Str) : Str := (h.custom_errors_.lookup code).getD []

def setCustomError (h : FTPVirtualHost) (code message : Str) : FTPVirtualHost :=
  { h with
    custom_errors_ := if message = [] then h.custom_errors_.erase code else h.custom_errors_.insert code message }

def userFile (h : FTPVirtualHost) : Str := match h.user_manager_ with
  | some m => m.user_file_
  | none => []

end FTPVirtualHost

structure VirtualHosts where
  map : AList (fun _ : Str => FTPVirtualHost)
  named : ∀ name host, map.lookup name = some host → host.hostname_ = name

namespace VirtualHosts

def getVirtualHost (v : VirtualHosts) (hostname : Str) : Option FTPVirtualHost :=
  v.map.lookup hostname

lemma getVirtualHost_hostname {v : VirtualHosts} {name : Str} {host : FTPVirtualHost}
    (h : v.getVirtualHost name = some host) : host.hostname_ = name := v.named name host h

def empty : VirtualHosts := ⟨∅, by simp⟩

def add (v : VirtualHosts) (h : FTPVirtualHost) : VirtualHosts where
  map := v.map.insert h.hostname_ h
  named name host hl := by
    rcases lookup_of_insert hl with ⟨rfl, rfl⟩ | hl
    · rfl
    · exact v.named name host hl

def erase (v : VirtualHosts) (hostname : Str) : VirtualHosts where
  map := v.map.erase hostname
  named name host hl := v.named name host (lookup_of_erase hl).2

variable {v : VirtualHosts} {h : FTPVirtualHost} {hostname name : Str}

lemma getVirtualHost_add_self : (v.add h).getVirtualHost h.hostname_ = some h := AList.lookup_insert _

lemma getVirtualHost_add_ne (hn : name ≠ h.hostname_) : (v.add h).getVirtualHost name = v.getVirtualHost name :=
  AList.lookup_insert_ne hn

lemma getVirtualHost_erase_ne (hn : name ≠ hostname) :
    (v.erase hostname).getVirtualHost name = v.getVirtualHost name :=
  AList.lookup_erase_ne hn

end VirtualHosts

end SimpleSftpd
