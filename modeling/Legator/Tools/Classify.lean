import Mathlib.Logic.Basic

/-!
# Classifying cloud CLI actions

The AWS and Azure CLI tools classify a call by the key
`"<service>.<command>"` (for Azure, `"<group>.<command>"`): three static
tables name the data mutations, the destructive mutations and the service
mutations, looked up in that order, and every other key is classified read.
The two classifiers have the same body and differ only in their tables and in
the provider named in the description, so both are `classifyKey` applied to
their own tables.

The declaration of `ActionTier` is not among the sources; its four tiers are
the spec's.
-/

namespace Legator.Tools

/-- The tier of a proposed action, weakest first. -/
inductive ActionTier
  | read
  | serviceMutation
  | destructiveMutation
  | dataMutation
  deriving DecidableEq, Repr

/-- What a classifier returns. -/
structure ActionClassification where
  tier : ActionTier
  blocked : Bool
  blockReason : String
  description : String
  deriving DecidableEq, Repr

/-- The three tables of a classifier, keyed by `"<service>.<command>"`. -/
structure ActionTables where
  destructive : List String
  dataMutation : List String
  serviceMutation : List String

/-- The body shared by `classifyAWSAction` and `classifyAzureAction`: a data
mutation is blocked, a destructive or service mutation is classified as such,
and a key in no table is read. -/
def classifyKey (provider : String) (tables : ActionTables) (key : String) :
    ActionClassification :=
  if key ∈ tables.dataMutation then
    { tier := .dataMutation, blocked := true, blockReason := "data mutation blocked: " ++ key,
      description := provider ++ " " ++ key ++ " (data mutation)" }
  else if key ∈ tables.destructive then
    { tier := .destructiveMutation, blocked := false, blockReason := "",
      description := provider ++ " " ++ key ++ " (destructive)" }
  else if key ∈ tables.serviceMutation then
    { tier := .serviceMutation, blocked := false, blockReason := "",
      description := provider ++ " " ++ key ++ " (service mutation)" }
  else
    { tier := .read, blocked := false, blockReason := "",
      description := provider ++ " " ++ key ++ " (read)" }

/-- The tables of `classifyAWSAction`. -/
def awsTables : ActionTables where
  destructive :=
    ["ec2.terminate-instances", "ec2.delete-security-group", "ec2.delete-vpc",
      "ec2.delete-subnet", "rds.delete-db-instance", "rds.delete-db-cluster",
      "iam.delete-user", "iam.delete-role", "iam.delete-policy", "iam.put-user-policy",
      "iam.attach-role-policy", "iam.create-access-key", "lambda.delete-function",
      "ecs.delete-cluster", "ecs.delete-service", "cloudformation.delete-stack"]
  dataMutation :=
    ["s3.rb", "s3.rm", "s3api.delete-bucket", "s3api.delete-object", "s3api.delete-objects",
      "dynamodb.delete-table", "dynamodb.delete-item", "rds.delete-db-snapshot",
      "rds.delete-db-cluster-snapshot"]
  serviceMutation :=
    ["ec2.start-instances", "ec2.stop-instances", "ec2.reboot-instances",
      "ec2.create-security-group", "ec2.authorize-security-group-ingress",
      "ec2.revoke-security-group-ingress", "ecs.update-service", "lambda.update-function-code",
      "lambda.update-function-configuration", "rds.reboot-db-instance",
      "rds.modify-db-instance", "autoscaling.set-desired-capacity",
      "autoscaling.update-auto-scaling-group"]

/-- `classifyAWSAction(service, command)`. -/
def classifyAWSAction (service command : String) : ActionClassification :=
  classifyKey "AWS" awsTables (service ++ "." ++ command)

/-- The tables of `classifyAzureAction`. -/
def azureTables : ActionTables where
  destructive :=
    ["vm.delete", "group.delete", "aks.delete", "network.vnet.delete", "network.nsg.delete",
      "sql.server.delete", "sql.db.delete", "keyvault.delete", "ad.sp.delete",
      "role.assignment.delete", "role.definition.delete", "functionapp.delete",
      "webapp.delete", "cosmosdb.delete"]
  dataMutation :=
    ["storage.account.delete", "storage.blob.delete", "storage.container.delete",
      "sql.db.delete", "cosmosdb.collection.delete", "cosmosdb.database.delete",
      "keyvault.secret.delete", "keyvault.key.delete", "backup.vault.delete"]
  serviceMutation :=
    ["vm.start", "vm.stop", "vm.deallocate", "vm.restart", "vm.resize", "aks.scale",
      "aks.upgrade", "webapp.restart", "functionapp.restart", "network.nsg.rule.create",
      "network.nsg.rule.delete", "network.nsg.rule.update", "sql.db.update",
      "role.assignment.create", "ad.sp.create"]

/-- `classifyAzureAction(group, command)`. -/
def classifyAzureAction (group command : String) : ActionClassification :=
  classifyKey "Azure" azureTables (group ++ "." ++ command)

/-- The arguments of a tool call; a value that is missing or not a string is
`none`. -/
abbrev ToolArgs := String → Option String

/-- `AWSCLITool.ClassifyAction`: a missing or non-string argument reads as the
empty string. -/
def awsClassifyAction (args : ToolArgs) : ActionClassification :=
  classifyAWSAction ((args "service").getD "") ((args "command").getD "")

/-- `AzureCLITool.ClassifyAction`. -/
def azureClassifyAction (args : ToolArgs) : ActionClassification :=
  classifyAzureAction ((args "group").getD "") ((args "command").getD "")

/-! ## Verbs missing from the tables -/

theorem unknown_cloud_verbs_read :
    ¬ (∀ service command, service ++ "." ++ command ∉ awsTables.dataMutation →
        service ++ "." ++ command ∉ awsTables.destructive →
        service ++ "." ++ command ∉ awsTables.serviceMutation →
        (classifyAWSAction service command).tier = .destructiveMutation ∨
          (classifyAWSAction service command).tier = .dataMutation) ∧
    ¬ (∀ group command, group ++ "." ++ command ∉ azureTables.dataMutation →
        group ++ "." ++ command ∉ azureTables.destructive →
        group ++ "." ++ command ∉ azureTables.serviceMutation →
        (classifyAzureAction group command).tier = .destructiveMutation ∨
          (classifyAzureAction group command).tier = .dataMutation) := by
  constructor
  · intro failClosed
    have volume := failClosed "ec2" "delete-volume" (by decide) (by decide) (by decide)
    revert volume
    decide
  · intro failClosed
    have disk := failClosed "disk" "delete" (by decide) (by decide) (by decide)
    revert disk
    decide

end Legator.Tools
