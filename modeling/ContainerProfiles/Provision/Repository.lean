import ContainerProfiles.Provision.Environment
import ContainerProfiles.Provision.Error

namespace ContainerProfiles

-- A repository of resources that keeps a journal of what it installs and uninstalls. An install is known by its
-- number, and a number can be uninstalled once.

inductive InstallAction where
  | install | uninstall
deriving DecidableEq

def InstallAction.text : InstallAction → String
  | .install => "install"
  | .uninstall => "uninstall"

structure InstallRecord where
  action : InstallAction
  identity : ResourceId
deriving DecidableEq

def InstallRecord.text (r : InstallRecord) : String := r.action.text ++ " " ++ r.identity

structure Handle where
  number : Nat
  resource : Resource
deriving DecidableEq

structure Repository where
  environment : Environment
  failing : List ResourceId := []
  journal : List InstallRecord := []
  issued : Nat := 0
  spent : List Nat := []

namespace Repository

def ofResources (resources : List Resource) : Repository :=
  { environment := resources.foldl Environment.addResource { name := "repository" } }

def addResource (repo : Repository) (r : Resource) : Repository :=
  { repo with environment := repo.environment.addResource r }

def failInstall (repo : Repository) (id : ResourceId) : Repository :=
  { repo with failing := id :: repo.failing }

def install (repo : Repository) (r : Resource) : Except ProvisionError (Handle × Repository) :=
  if r.identity ∈ repo.failing then .error (.installRejected r.identity)
  else
    .ok (⟨repo.issued, r⟩,
      { repo with
        journal := repo.journal ++ [⟨.install, r.identity⟩]
        issued := repo.issued + 1 })

def uninstall (repo : Repository) (handle : Handle) : Except ProvisionError Repository :=
  if handle.number ∈ repo.spent then .error (.alreadyUninstalled handle.resource.identity)
  else
    .ok { repo with
      journal := repo.journal ++ [⟨.uninstall, handle.resource.identity⟩]
      spent := handle.number :: repo.spent }

def installs (repo : Repository) : List ResourceId :=
  (repo.journal.filter (fun r => r.action = .install)).map (·.identity)

def uninstalls (repo : Repository) : List ResourceId :=
  (repo.journal.filter (fun r => r.action = .uninstall)).map (·.identity)

-- The identities in order, as the journal leaves them when it is followed record by record.
def installed (repo : Repository) : List ResourceId :=
  (repo.journal.foldl (fun (live : Dict ResourceId Unit) r => match r.action with
    | .install => live.insert r.identity ()
    | .uninstall => live.erase r.identity) ∅).keys

def clearJournal (repo : Repository) : Repository := { repo with journal := [] }

end Repository
end ContainerProfiles
