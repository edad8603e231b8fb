import DeployMonster.Auth.VaultRotation
import DeployMonster.Autoscale.Module
import DeployMonster.Backup.Restore
import DeployMonster.Billing.Metering
import DeployMonster.Billing.Replay
import DeployMonster.Billing.Subscriptions
import DeployMonster.Build.Redaction
import DeployMonster.Build.TenantQueue
import DeployMonster.Compose.Rollback
import DeployMonster.Core.CircuitBreaker
import DeployMonster.Core.CommandSafety
import DeployMonster.Core.EventOrder
import DeployMonster.Core.Registry
import DeployMonster.Core.Volumes
import DeployMonster.Cron.Module
import DeployMonster.DB.ListQueries
import DeployMonster.Deploy.AutoRollback
import DeployMonster.Deploy.BlockIO
import DeployMonster.Deploy.RollbackContainers
import DeployMonster.Discovery.Health
import DeployMonster.Discovery.Watcher
import DeployMonster.Handlers.AppCreate
import DeployMonster.Handlers.AppStop
import DeployMonster.Handlers.ConcurrentDeploys
import DeployMonster.Handlers.EnvVars
import DeployMonster.Handlers.Invitations
import DeployMonster.Handlers.Lockout
import DeployMonster.Handlers.SingleUse
import DeployMonster.Handlers.Transfer
import DeployMonster.Handlers.VersionOrder
import DeployMonster.Handlers.WebhookRotate
import DeployMonster.Ingress.Forwarding
import DeployMonster.Ingress.Weighted
import DeployMonster.Middleware.Idempotency
import DeployMonster.Middleware.RateLimit
import DeployMonster.Resource.Module
import DeployMonster.Secrets.Recovery
import DeployMonster.Secrets.Templates
import DeployMonster.Swarm.Commands
import DeployMonster.Swarm.Correlation
import DeployMonster.Topology.Connections
import DeployMonster.Webhooks.Replay
