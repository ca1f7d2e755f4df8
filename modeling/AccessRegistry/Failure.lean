/-!
# AccessRegistry.Failure

The ways in which an operation of the registry fails. Every layer reports one of these kinds; what
fits none of them is `internal`, with the message of its source.
-/

namespace AccessRegistry

inductive Failure where
  /-- the system does not exist -/
  | systemNotFound
  /-- no domain matches -/
  | domainNotFound
  /-- the system has a domain of that name -/
  | domainDuplicateName
  /-- no application group matches -/
  | appGroupNotFound
  /-- the domain has an application group of that name -/
  | appGroupDuplicateName
  /-- no application matches -/
  | applicationNotFound
  /-- the group has an application of that name -/
  | applicationDuplicateName
  /-- there is an application with that id -/
  | applicationDuplicateId
  /-- the token is unknown -/
  | tokenNotFound
  /-- the token is known and its lifetime has elapsed -/
  | tokenExpired
  /-- the token is stored already -/
  | tokenDuplicate
  /-- no permission matches the application and the method -/
  | accessListNotFound
  /-- the request makes no sense -/
  | invalidArgument (message : String)
  /-- anything else -/
  | internal (message : String)
deriving DecidableEq, Repr, Inhabited

namespace Failure

/-- The text shown to people. -/
def text : Failure → String
  | .systemNotFound => "system not found"
  | .domainNotFound => "domain not found"
  | .domainDuplicateName => "domain with the same name already exists"
  | .appGroupNotFound => "application group not found"
  | .appGroupDuplicateName => "application group with the same name already exists"
  | .applicationNotFound => "application not found"
  | .applicationDuplicateName => "application with the same name already exists"
  | .applicationDuplicateId => "application with the same id already exists"
  | .tokenNotFound => "token not found"
  | .tokenExpired => "token is expired"
  | .tokenDuplicate => "token already exists"
  | .accessListNotFound => "access list not found"
  | .invalidArgument message => "invalid argument: " ++ message
  | .internal message => "internal error: " ++ message

/-- The code shown to programs. -/
def reason : Failure → String
  | .systemNotFound => "SYSTEM_NOT_FOUND"
  | .domainNotFound => "DOMAIN_NOT_FOUND"
  | .domainDuplicateName => "DOMAIN_DUPLICATE_NAME"
  | .appGroupNotFound => "APP_GROUP_NOT_FOUND"
  | .appGroupDuplicateName => "APP_GROUP_DUPLICATE_NAME"
  | .applicationNotFound => "APPLICATION_NOT_FOUND"
  | .applicationDuplicateName => "APPLICATION_DUPLICATE_NAME"
  | .applicationDuplicateId => "APPLICATION_DUPLICATE_ID"
  | .tokenNotFound => "TOKEN_NOT_FOUND"
  | .tokenExpired => "TOKEN_EXPIRED"
  | .tokenDuplicate => "TOKEN_DUPLICATE"
  | .accessListNotFound => "ACCESS_LIST_NOT_FOUND"
  | .invalidArgument _ => "INVALID_ARGUMENT"
  | .internal _ => "INTERNAL"

/-- Whether something that was looked for is not there. -/
def isNotFound : Failure → Bool
  | .systemNotFound | .domainNotFound | .appGroupNotFound | .applicationNotFound
  | .tokenNotFound | .accessListNotFound => true
  | _ => false

/-- Whether a name, an id or a token is taken. -/
def isDuplicate : Failure → Bool
  | .domainDuplicateName | .appGroupDuplicateName | .applicationDuplicateName
  | .applicationDuplicateId | .tokenDuplicate => true
  | _ => false

end Failure

end AccessRegistry
