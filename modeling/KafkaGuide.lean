import KafkaGuide.Lib.Lts
import KafkaGuide.Lib.Dict
import KafkaGuide.Lib.Json
import KafkaGuide.Lib.Tries
import KafkaGuide.Lib.Decimal
import KafkaGuide.Lib.DecimalText
import KafkaGuide.Breaker
import KafkaGuide.BreakerInv
import KafkaGuide.BreakerProbe
import KafkaGuide.BreakerEdges
import KafkaGuide.CqrsOrder
import KafkaGuide.CqrsQuery
import KafkaGuide.CqrsAgree
import KafkaGuide.Saga
import KafkaGuide.SagaSys
import KafkaGuide.SagaFlow
import KafkaGuide.SagaAgree
import KafkaGuide.Outbox
import KafkaGuide.OrderMoney
import KafkaGuide.Relay
import KafkaGuide.RelayInv
import KafkaGuide.RelayLoss
import KafkaGuide.RelayOrder
import KafkaGuide.Consumer
import KafkaGuide.OutboxWire
import KafkaGuide.ConsumerSkip
import KafkaGuide.ConsumerOnce
import KafkaGuide.OrderEvents
import KafkaGuide.OrderEventsSafe
import KafkaGuide.RetrySpec
import KafkaGuide.Gateway
import KafkaGuide.GatewayCharge
import KafkaGuide.CqrsComplete
import KafkaGuide.CqrsShuffle
import KafkaGuide.SagaHistory
import KafkaGuide.SagaInOrder
import KafkaGuide.SagaRefund
import KafkaGuide.SagaPublish
import KafkaGuide.GatewayLoad
import KafkaGuide.GatewayAnswers
import KafkaGuide.Points
import KafkaGuide.PointsOnce
import KafkaGuide.Lib.ConsumerLoop
import KafkaGuide.Payments
import KafkaGuide.PointsBalance
import KafkaGuide.PaymentsDlq
import KafkaGuide.PaymentsRetry
import KafkaGuide.ConsumerLoops
import KafkaGuide.BreakerFields
import KafkaGuide.BreakerHistory
import KafkaGuide.CqrsProject
import KafkaGuide.CqrsTerminal
import KafkaGuide.CqrsHistory
import KafkaGuide.SagaAmounts
import KafkaGuide.SagaItems
import KafkaGuide.CqrsInventory
import KafkaGuide.CqrsResults
import KafkaGuide.ConsumerGroup
import KafkaGuide.ConsumerGroupSafe
import KafkaGuide.PointsCrash
import KafkaGuide.Lib.IsoDate
import KafkaGuide.Lib.Text
import KafkaGuide.Messages
import KafkaGuide.MessagesRoundTrip
import KafkaGuide.CqrsSys
import KafkaGuide.CqrsRevenue
import KafkaGuide.Lib.JsonCodec
import KafkaGuide.Monitoring
import KafkaGuide.MonitoringLag
import KafkaGuide.Lib.IsoOrder
import KafkaGuide.CqrsOrders
import KafkaGuide.Lib.Window
import KafkaGuide.CqrsMade
import KafkaGuide.CqrsSettled
import KafkaGuide.RecentItems
import KafkaGuide.Lib.Grouped
import KafkaGuide.CqrsNotify
import KafkaGuide.CqrsGateway
import KafkaGuide.RelayDrain
import KafkaGuide.ConsumerDrain
import KafkaGuide.OrderEventsDrain
import KafkaGuide.SagaEnds
import KafkaGuide.PaymentsApp
import KafkaGuide.GatewayRecovery
import KafkaGuide.GatewayOwned
import KafkaGuide.GatewayEnds
import KafkaGuide.Lib.KeyedLog
import KafkaGuide.Topics
import KafkaGuide.GroupOrders
import KafkaGuide.GroupCatchUp
import KafkaGuide.CqrsOnce
import KafkaGuide.CqrsEnds
